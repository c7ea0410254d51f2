import GameIngress.Proofs.Cluster.Annotations
import GameIngress.Proofs.Object.NormalForm

/-!
# Game servers in normal form

Each part of a game server is read back from what it is written as: the decoder inverts the encoder,
part by part. There are more ways to write a game server than the encoder's own, but once it was
read the way does not matter any more.
-/
namespace GameIngress

open Json

theorem LifecycleState.inverts : Inverts LifecycleState.ofJson? LifecycleState.toJson :=
  ⟨fun s => congrArg some (ofName_name s), nofun⟩

theorem ContainerPort.inverts : Inverts ContainerPort.ofJson? ContainerPort.toJson := by
  refine ⟨fun p => ?_, nofun⟩
  let ms : List (String × Option Json) := [
    ("name", some (.text p.name)),
    ("containerPort", some (ofInt32 p.containerPort)),
    ("hostPort", p.hostPort.map ofInt32),
    ("protocol", p.protocol.map .text)]
  have hget (k : String) : (present ms).get? k = (ms.lookup k).join := get?_present (by simp [ms]) k
  have hname : (present ms).orDefault "name" "" asText = some p.name :=
    inverts_text.orDefault_of_get? "" (hget "name")
  have hport : (present ms).orDefault "containerPort" 0 asInt32 = some p.containerPort :=
    inverts_int32.orDefault_of_get? 0 (hget "containerPort")
  have hhost : (present ms).optional "hostPort" asInt32 = some p.hostPort :=
    inverts_int32.optional_of_get? (hget "hostPort")
  have hprotocol : (present ms).optional "protocol" asText = some p.protocol :=
    inverts_text.optional_of_get? (hget "protocol")
  change ContainerPort.ofJson? (.object (present ms)) = some p
  simp only [ContainerPort.ofJson?, fieldsOf, hname, hport, hhost, hprotocol, bind,
    Option.bind_some]

theorem AllocatedPort.inverts : Inverts AllocatedPort.ofJson? AllocatedPort.toJson := by
  refine ⟨fun p => ?_, nofun⟩
  let ms : List (String × Option Json) := [
    ("name", some (.text p.name)),
    ("port", some (ofInt32 p.port))]
  have hget (k : String) : (present ms).get? k = (ms.lookup k).join := get?_present (by simp [ms]) k
  have hname : (present ms).orDefault "name" "" asText = some p.name :=
    inverts_text.orDefault_of_get? "" (hget "name")
  have hport : (present ms).orDefault "port" 0 asInt32 = some p.port :=
    inverts_int32.orDefault_of_get? 0 (hget "port")
  change AllocatedPort.ofJson? (.object (present ms)) = some p
  simp only [AllocatedPort.ofJson?, fieldsOf, hname, hport, bind, Option.bind_some]

theorem GameServerStatus.inverts : Inverts GameServerStatus.ofJson? GameServerStatus.toJson := by
  refine ⟨fun s => ?_, nofun⟩
  let ms : List (String × Option Json) := [
    ("state", some s.state.toJson),
    ("ports", nonEmptyList AllocatedPort.toJson s.ports),
    ("address", s.address.map .text),
    ("nodeName", s.nodeName.map .text)]
  have hget (k : String) : (present ms).get? k = (ms.lookup k).join := get?_present (by simp [ms]) k
  have hstate : (present ms).orDefault "state" .unknown LifecycleState.ofJson? = some s.state :=
    LifecycleState.inverts.orDefault_of_get? .unknown (hget "state")
  have hports : (present ms).orDefault "ports" [] (listOf AllocatedPort.ofJson?) = some s.ports :=
    AllocatedPort.inverts.orDefault_of_nonEmptyList (hget "ports")
  have haddress : (present ms).optional "address" asText = some s.address :=
    inverts_text.optional_of_get? (hget "address")
  have hnode : (present ms).optional "nodeName" asText = some s.nodeName :=
    inverts_text.optional_of_get? (hget "nodeName")
  change GameServerStatus.ofJson? (.object (present ms)) = some s
  simp only [GameServerStatus.ofJson?, fieldsOf, hstate, hports, haddress, hnode, bind,
    Option.bind_some]

namespace GameServer

theorem portsOfSpec?_of_written (ports : List ContainerPort) :
    portsOfSpec? (Json.ofOptions [("ports", nonEmptyList ContainerPort.toJson ports)]) =
      some ports := by
  let ms : List (String × Option Json) := [("ports", nonEmptyList ContainerPort.toJson ports)]
  have hget : (present ms).get? "ports" = nonEmptyList ContainerPort.toJson ports :=
    get?_present (by simp [ms]) "ports"
  exact ContainerPort.inverts.orDefault_of_nonEmptyList hget

/-- A game server is read back with its ports and its status, and with the metadata that are read
back. -/
theorem ofJson?_toJson (gs : GameServer) {m : ObjectMeta}
    (h : ObjectMeta.ofJson? gs.metadata.toJson = some m) :
    GameServer.ofJson? gs.toJson = some { gs with metadata := m } := by
  let ms : List (String × Option Json) := [
    ("apiVersion", some (.text apiVersion)),
    ("kind", some (.text kind)),
    ("metadata", some gs.metadata.toJson),
    ("spec", some (Json.ofOptions [("ports", nonEmptyList ContainerPort.toJson gs.ports)])),
    ("status", gs.status.map GameServerStatus.toJson)]
  have hget (k : String) : (present ms).get? k = (ms.lookup k).join := get?_present (by simp [ms]) k
  have hmeta : ((present ms).get? "metadata").bind ObjectMeta.ofJson? = some m := by
    rw [hget]
    exact h
  have hspec : ((present ms).get? "spec").bind portsOfSpec? = some gs.ports := by
    rw [hget]
    exact portsOfSpec?_of_written gs.ports
  have hstatus : (present ms).optional "status" GameServerStatus.ofJson? = some gs.status :=
    GameServerStatus.inverts.optional_of_get? (hget "status")
  change GameServer.ofJson? (.object (present ms)) = some { gs with metadata := m }
  simp only [GameServer.ofJson?, fieldsOf, positionalAll, hmeta, hspec, hstatus, bind,
    Option.bind_some]
  rfl

/-- A game server is read back with its ports and its status if its metadata are read back. After a
game server was read, all of it is read back. -/
theorem json_normal_form :
    (∀ (gs : GameServer) (m : ObjectMeta), ObjectMeta.ofJson? gs.metadata.toJson = some m →
      GameServer.ofJson? gs.toJson = some { gs with metadata := m }) ∧
    ∀ (j : Json) (gs : GameServer), GameServer.ofJson? j = some gs →
      GameServer.ofJson? gs.toJson = some gs := by
  refine ⟨fun gs m hm => gs.ofJson?_toJson hm, fun j gs h => ?_⟩
  obtain ⟨ms, -, hmeta⟩ := GameServer.ofJson?_eq_some h
  obtain ⟨j', -, hread⟩ := Option.bind_eq_some_iff.mp hmeta
  exact gs.ofJson?_toJson (ObjectMeta.ofJson?_toJson_of_ofJson? hread)

/-- A game server without ports; and one that is given with a port by position, a state as a single
key, an address that is null and a member that is not known. -/
theorem json_normal_form_of_positional :
    let arena : GameServer := { metadata := { name := some "arena" }, status := some {} }
    let j : Json := .object [
      ("metadata", .object [("name", .text "arena"), ("labels", .object [("map", .text "dust")])]),
      ("spec", .object [("ports", .array [.array [.text "game", .int 7777]])]),
      ("status", .object [("state", .object [("Ready", .null)]), ("address", .null),
        ("players", .int 3)])]
    (ObjectMeta.ofJson? arena.metadata.toJson = some arena.metadata ∧
      GameServer.ofJson? arena.toJson = some arena) ∧
    ∃ gs : GameServer, GameServer.ofJson? j = some gs ∧
      gs.ports = [{ name := "game", containerPort := 7777 }] ∧
      gs.status = some { state := .ready } ∧ GameServer.ofJson? gs.toJson = some gs := by
  intro arena j
  have hmeta : ObjectMeta.ofJson? arena.metadata.toJson = some arena.metadata := rfl
  exact ⟨⟨hmeta, json_normal_form.1 arena _ hmeta⟩, _, rfl, rfl, rfl, json_normal_form.2 j _ rfl⟩

end GameServer
end GameIngress
