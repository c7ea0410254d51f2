import GameIngress.Manifest.Custom
import GameIngress.Manifest.Owned
import GameIngress.Object.Ingress

/-!
# The Ingress of a game server

One rule and one certificate for every host that the game server lists. In the domain mode a host
is a subdomain named after the game server; in the path mode the game server is a path under the
listed host.
-/
namespace GameIngress.Manifest

inductive IngressStep where
  | literals
  | templates
  | className
  | rules (mode : RoutingMode) (rewrite : Bool)
  | tls (mode : RoutingMode)
  | issuer (name : String)
  deriving DecidableEq, Repr

def ingressSteps (gs : GameServer) (rewrite : Bool) : List IngressStep :=
  let mode := gs.routingMode
  [.literals, .templates, .className, .rules mode rewrite, .tls mode, .issuer gs.tlsIssuer]

/-- The listed hosts of a mode, of which there must be one. -/
def modeHosts (gs : GameServer) (mode : RoutingMode) : Except ValidationError (List String) :=
  let key := mode.hostsAnnotation
  match gs.annotationValue? key with
  | none => .error (.routingAnnotationMissing mode key gs.ns gs.name)
  | some value =>
    match splitHosts value with
    | [] => .error (.annotationEmpty gs.ns gs.name key)
    | hosts => .ok hosts

/-- The host that is served for a listed one. -/
def ruleHost (gs : GameServer) (mode : RoutingMode) (entry : String) : String :=
  match mode with
  | .domain => gs.name ++ "." ++ entry
  | .path => entry

/-- The path that a rule matches, and how it matches. -/
structure PathMatch where
  path : String
  pathType : String
  deriving DecidableEq

def PathMatch.everything : PathMatch := ⟨"/", "Prefix"⟩
def PathMatch.below (name : String) : PathMatch := ⟨"/" ++ name, "Prefix"⟩

/-- Matches below the name and captures what follows it. -/
def PathMatch.capturing (name : String) : PathMatch :=
  ⟨"/" ++ name ++ "(/|$)(.*)", "ImplementationSpecific"⟩

def rule (gs : GameServer) (host : String) (m : PathMatch) : IngressRule where
  host := some host
  http := some [{
    path := some m.path
    pathType := m.pathType
    backend := { service := some { name := gs.name, port := some { number := some gs.port } } } }]

/-- Rewrites a captured path to what was captured. -/
def defaultRewrite : String := "/$2"

/-- The default secret of a listed host, with dashes for dots. -/
def tlsSecretName (entry name : String) : String :=
  String.ofList ((entry ++ "-" ++ name ++ "-tls").toList.map fun c => if c = '.' then '-' else c)

/-- Change the specification, which is empty if there was none. -/
def onSpec (f : IngressSpec → IngressSpec) (i : Ingress) : Ingress :=
  { i with spec := some (f (i.spec.getD {})) }

/-- Make sure that there are annotations. -/
def withAnnotations (m : ObjectMeta) : ObjectMeta := { m with annotations := some m.annotationMap }

def applyRules (gs : GameServer) (mode : RoutingMode) (rewrite : Bool) (i : Ingress) :
    Stepped Ingress :=
  match modeHosts gs mode with
  | .error e => (i, some e)
  | .ok hosts =>
    let (m, path) := match mode with
      | .domain => (i.metadata, PathMatch.everything)
      | .path =>
        if rewrite && !i.metadata.annotationMap.contains Annotations.rewriteTarget then
          (i.metadata.annotate Annotations.rewriteTarget defaultRewrite,
            PathMatch.capturing gs.name)
        else (withAnnotations i.metadata, PathMatch.below gs.name)
    let rules := hosts.map fun entry => rule gs (ruleHost gs mode entry) path
    (onSpec (fun s => { s with rules := some rules }) { i with metadata := m }, none)

def applyTls (gs : GameServer) (mode : RoutingMode) (i : Ingress) : Stepped Ingress :=
  let given := gs.annotationValue? Annotations.tlsSecretName
  if given = some "" then
    (i, some (.annotationEmpty gs.ns gs.name Annotations.tlsSecretName))
  else
    match modeHosts gs mode with
    | .error e => (i, some e)
    | .ok hosts =>
      let entries := hosts.map fun entry =>
        { hosts := some [ruleHost gs mode entry],
          secretName := some (given.getD (tlsSecretName entry gs.name)) : IngressTls }
      (onSpec (fun s => { s with tls := some entries }) i, none)

def applyIssuer (gs : GameServer) (issuer : String) (i : Ingress) : Stepped Ingress :=
  match (gs.annotationValue? Annotations.terminateTls).getD "" with
  | "" => (i, none)
  | wanted =>
    match readBool wanted with
    | none => (i, some (.invalidBool Annotations.terminateTls gs.name))
    | some false => (i, none)
    | some true =>
      if issuer = "" then (i, some (.issuerMissing Annotations.issuerName gs.name))
      else ({ i with metadata := i.metadata.annotate Annotations.clusterIssuer issuer }, none)

def IngressStep.apply (gs : GameServer) (step : IngressStep) (i : Ingress) : Stepped Ingress :=
  match step with
  | literals =>
    let (m, e) := onAnnotations (literalStep gs Annotations.ingressCustom) i.metadata
    ({ i with metadata := m }, e)
  | templates =>
    let (m, e) := onAnnotations (templateStep gs Annotations.ingressCustom) i.metadata
    ({ i with metadata := m }, e)
  | className =>
    if gs.ingressClass = "" then (i, none)
    else (onSpec (fun s => { s with className := some gs.ingressClass }) i, none)
  | rules mode rewrite => applyRules gs mode rewrite i
  | tls mode => applyTls gs mode i
  | issuer name => applyIssuer gs name i

def bareIngress (gs : GameServer) : Ingress where
  metadata := ownedMeta gs
  spec := some {}

/-- The Ingress that a game server asks for; `rewrite` asks for captured paths in the path mode. -/
def buildIngress (gs : GameServer) (rewrite : Bool) : Except ValidationError Ingress :=
  build (IngressStep.apply gs) (ingressSteps gs rewrite) (bareIngress gs)

end GameIngress.Manifest
