import GameIngress.GameServer.Basic
import GameIngress.Text.Blank

/-!
# Routing requested by annotations

A game server asks to be exposed through annotations. The routing mode decides where its hosts are
listed: one subdomain of each listed domain, or one path under each listed host name.
-/
namespace GameIngress

namespace Annotations

def ingressMode : String := "octops.io/gameserver-ingress-mode"
def ingressDomain : String := "octops.io/gameserver-ingress-domain"
def ingressFqdn : String := "octops.io/gameserver-ingress-fqdn"
def terminateTls : String := "octops.io/terminate-tls"
def tlsSecretName : String := "octops.io/tls-secret-name"
def issuerName : String := "octops.io/issuer-tls-name"
def ingressReady : String := "octops.io/ingress-ready"
def className : String := "octops.io/ingress-class-name"
def classNameLegacy : String := "octops-kubernetes.io/ingress.class"
def clusterIssuer : String := "cert-manager.io/cluster-issuer"

/-- Annotations that start so are handed on to the Ingress. -/
def ingressCustom : String := "octops-"

/-- Annotations that start so are handed on to the Service. -/
def serviceCustom : String := "octops.service-"

def rewriteTarget : String := "nginx.ingress.kubernetes.io/rewrite-target"

end Annotations

namespace Label

def gameServer : String := "agones.dev/gameserver"
def managedBy : String := "app.kubernetes.io/managed-by"

end Label

inductive RoutingMode where
  | domain
  | path
  deriving DecidableEq, Inhabited, Repr

namespace RoutingMode

def name : RoutingMode → String
  | domain => "domain"
  | path => "path"

/-- The annotation that lists the hosts of the mode. -/
def hostsAnnotation : RoutingMode → String
  | domain => Annotations.ingressDomain
  | path => Annotations.ingressFqdn

end RoutingMode

/-- The truth values that operators write in manifests. -/
def readBool (s : String) : Option Bool :=
  if ["1", "t", "T", "TRUE", "true", "True"].contains s then some true
  else if ["0", "f", "F", "FALSE", "false", "False"].contains s then some false
  else none

/-- The entries of a list separated by commas; blanks around an entry do not count, and blank
entries are dropped. -/
def splitHosts (s : String) : List String :=
  (((Text.splitOn ',' s.toList).map Text.trim).filter (· ≠ [])).map String.ofList

namespace GameServer

/-- The mode asked for, with any other word than `path` standing for the domain mode. -/
def routingMode (gs : GameServer) : RoutingMode :=
  match gs.annotationValue? Annotations.ingressMode with
  | some mode =>
    if (Text.trim mode.toList).map Char.toLower = ['p', 'a', 't', 'h'] then .path else .domain
  | none => .domain

def tlsIssuer (gs : GameServer) : String := (gs.annotationValue? Annotations.issuerName).getD ""

/-- The class of the Ingress; the older annotation counts where the newer one is missing. -/
def ingressClass (gs : GameServer) : String :=
  (gs.annotationValue? Annotations.className
    <|> gs.annotationValue? Annotations.classNameLegacy).getD ""

def isShutdown (gs : GameServer) : Bool := gs.state = .shutdown

/-- Only these states are exposed. -/
def isExposable (gs : GameServer) : Bool :=
  match gs.state with
  | .scheduled | .requestReady | .ready => true
  | _ => false

end GameServer
end GameIngress
