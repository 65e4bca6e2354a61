import TelemetryRouter.Proofs.AddressText
import TelemetryRouter.Proofs.ClusterServices

/-!
# Endpoints of IP addresses

The text of an address is completed with a port the way an address is written with one (`IpAddress.withDefaultPort_of_isText`). So a lookup
that adds a port lists what a lookup without one lists once that is completed, and a backend is reached at the same address either way
(`Source.ofAddresses_completed`); and the endpoints of an object whose ready addresses are such texts are those addresses with every port,
none of which is mistaken for another (`EndpointsObject.endpoints_of_texts`).
-/

namespace TelemetryRouter

variable {α : Type}

/-! ## Addresses with a port -/

namespace IpAddress

/-- Whether a text is the text of an address. -/
def IsText (ip : String) : Prop := ∃ a, read ip = some a

/-- The text of an address with a port behind it: an address of version 6 is put between brackets. -/
def socketText (ip : String) (port : UInt16) : String :=
  match read ip with
  | some (.v6 _) => "[" ++ ip ++ "]:" ++ toString port.toNat
  | _ => ip ++ ":" ++ toString port.toNat

/-- The text of an address is completed according to the version of the address. -/
theorem withDefaultPort_of_isText {ip : String} (h : IsText ip) (port : UInt16) :
    (Endpoint.mk ip).withDefaultPort port = ⟨socketText ip port⟩ := by
  obtain ⟨a, hread⟩ := h
  have hhost := isHost_of_read hread
  unfold socketText
  rw [hread]
  cases a with
  | v4 bytes => exact Endpoint.withDefaultPort_of_plain hhost.hasPort (.inr (not_mem_of_read_v4 hread).1) port
  | v6 groups =>
    have hcolon : ':' ∈ ip.toList := List.count_pos_iff.1 (Nat.lt_of_lt_of_le Nat.zero_lt_two (count_of_read_v6 hread).1)
    exact Endpoint.withDefaultPort_of_colons hhost.hasPort hhost.unbracketed hcolon port

theorem isText_text (a : IpAddress) : IsText a.text := ⟨a, read_text a⟩

/-- The endpoint of an address with a port is its text, completed. -/
theorem withDefaultPort_text (a : IpAddress) (port : UInt16) : (Endpoint.mk a.text).withDefaultPort port = a.endpoint (some port) := by
  rw [withDefaultPort_of_isText a.isText_text, socketText, read_text]
  cases a with
  | v4 bytes => rfl
  | v6 groups => rfl

theorem socketText_inj {ip ip' : String} (h : IsText ip) (h' : IsText ip') {port port' : UInt16}
    (heq : socketText ip port = socketText ip' port') : ip = ip' ∧ port = port' := by
  have hcompleted : (Endpoint.mk ip).withDefaultPort port = (Endpoint.mk ip').withDefaultPort port' := by
    rw [withDefaultPort_of_isText h, withDefaultPort_of_isText h', heq]
  obtain ⟨a, hread⟩ := h
  obtain ⟨a', hread'⟩ := h'
  obtain ⟨hsame, hport⟩ := (isHost_of_read hread).withDefaultPort_inj (isHost_of_read hread') hcompleted
  exact ⟨Endpoint.mk.inj hsame, hport⟩

end IpAddress

/-! ## Lookups -/

/-- A lookup with a port lists what one without a port lists, each endpoint completed with that port. No other port changes these endpoints,
and a balancer that completes with the port makes exporters with the same addresses, whatever another does with the completed list. -/
theorem Source.ofAddresses_completed (addresses : List IpAddress) (port : UInt16) :
    ofAddresses (some port) addresses = (ofAddresses none addresses).map (fun e => e.withDefaultPort port) ∧
    (∀ e ∈ ofAddresses (some port) addresses, ∀ other, e.withDefaultPort other = e) ∧
    ∀ b b' : Balancer α, b.options.defaultPort = some port →
      (ofAddresses none addresses).map b.addressFor = (ofAddresses (some port) addresses).map b'.addressFor := by
  have hlist : ofAddresses (some port) addresses = (ofAddresses none addresses).map (fun e => e.withDefaultPort port) := by
    unfold ofAddresses
    rw [List.map_map]
    exact List.map_congr_left (fun a _ => (a.withDefaultPort_text port).symm)
  have hstays : ∀ e ∈ ofAddresses (some port) addresses, ∀ other, e.withDefaultPort other = e := by
    rw [hlist]
    intro e he other
    obtain ⟨bare, hbare, rfl⟩ := List.mem_map.1 he
    obtain ⟨a, -, rfl⟩ := List.mem_map.1 hbare
    have hhead := (IpAddress.isHost_of_read a.read_text).unbracketed
    exact Endpoint.withDefaultPort_of_hasPort (Endpoint.hasPort_withDefaultPort_of_head hhead port) other
  refine ⟨hlist, hstays, fun b b' hb => ?_⟩
  have hbare : ∀ e, b.addressFor e = (e.withDefaultPort port).address := by
    intro e
    rw [Balancer.addressFor, hb]
  have hcompleted : ∀ e ∈ ofAddresses (some port) addresses, b'.addressFor e = e.address := by
    intro e he
    unfold Balancer.addressFor
    split
    · rw [hstays e he]
    · rfl
  rw [List.map_congr_left hcompleted, hlist, List.map_map]
  exact List.map_congr_left (fun e _ => hbare e)

/-- The end of an address that stands for one of version 4 is not taken for a port. -/
example : Source.ofAddresses (some 4317) [.v6 #v[0, 0, 0, 0, 0, 0xffff, 0x0a00, 0x0001]] = [⟨"[::ffff:10.0.0.1]:4317"⟩] := by decide

/-! ## Objects -/

namespace EndpointsObject

/-- The addresses of an object that are not ready. -/
def notReadyAddresses (o : EndpointsObject) : List String := (o.subsets.getD []).flatMap (fun s => s.notReady.getD [])

/-- What an object says with its addresses that are not ready left out. -/
def onlyReady (o : EndpointsObject) : EndpointsObject := ⟨o.subsets.map (fun subsets => subsets.map (fun s => ⟨s.ready, none⟩))⟩

theorem endpoints_onlyReady (o : EndpointsObject) (ports : List UInt16) : o.onlyReady.endpoints ports = o.endpoints ports := by
  unfold endpoints onlyReady
  cases o.subsets with
  | none => rfl
  | some subsets => rw [Option.map_some, Option.getD_some, Option.getD_some, List.flatMap_map]

/-- If the ready addresses of an object are texts of addresses, its endpoints are these texts with every port, in the order of the
subsets, of the addresses and of the ports. There are as many as pairs of an address and a port, the endpoints of two such pairs are
different, and an address that is listed only among those that are not ready makes none: none has its text, and without it the endpoints
are the same. -/
theorem endpoints_of_texts (o : EndpointsObject) (h : ∀ ip ∈ o.readyAddresses, IpAddress.IsText ip) (ports : List UInt16) :
    (o.endpoints ports).length = o.readyAddresses.length * ports.length ∧
    o.endpoints ports = (o.subsets.getD []).flatMap (fun s =>
      (s.ready.getD []).flatMap (fun ip => ports.map (fun port => ⟨IpAddress.socketText ip port⟩))) ∧
    (∀ ip ∈ o.readyAddresses, ∀ ip' ∈ o.readyAddresses, ∀ port ∈ ports, ∀ port' ∈ ports,
      (Endpoint.mk ip).withDefaultPort port = (Endpoint.mk ip').withDefaultPort port' → ip = ip' ∧ port = port') ∧
    o.endpoints ports = o.onlyReady.endpoints ports ∧
    ∀ ip ∈ o.notReadyAddresses, ip ∉ o.readyAddresses → IpAddress.IsText ip →
      ∀ port, ⟨IpAddress.socketText ip port⟩ ∉ o.endpoints ports := by
  have hready : ∀ s ∈ o.subsets.getD [], ∀ ip ∈ s.ready.getD [], ip ∈ o.readyAddresses := fun s hs ip hip =>
    List.mem_flatMap.2 ⟨s, hs, hip⟩
  refine ⟨o.length_endpoints ports, ?_, ?_, (o.endpoints_onlyReady ports).symm, ?_⟩
  · refine List.flatMap_congr (fun s hs => List.flatMap_congr (fun ip hip => List.map_congr_left (fun port _ => ?_)))
    exact IpAddress.withDefaultPort_of_isText (h ip (hready s hs ip hip)) port
  · intro ip hip ip' hip' port _ port' _ heq
    rw [IpAddress.withDefaultPort_of_isText (h ip hip), IpAddress.withDefaultPort_of_isText (h ip' hip')] at heq
    exact IpAddress.socketText_inj (h ip hip) (h ip' hip') (Endpoint.mk.inj heq)
  · intro ip _ hnot htext port hmem
    rw [endpoints_eq, List.mem_flatMap] at hmem
    obtain ⟨ip', hip', hmem⟩ := hmem
    obtain ⟨port', -, heq⟩ := List.mem_map.1 hmem
    rw [IpAddress.withDefaultPort_of_isText (h ip' hip')] at heq
    obtain ⟨rfl, -⟩ := IpAddress.socketText_inj (h ip' hip') htext (Endpoint.mk.inj heq)
    exact hnot hip'

/-- An object with addresses of both versions in two subsets, with lists that are absent and empty, and with one address that is listed
only among those that are not ready. -/
def ofBoth : EndpointsObject :=
  ⟨some [⟨some ["10.0.0.1", "fd00::1"], some ["10.0.0.9"]⟩, ⟨none, none⟩, ⟨some [], some ["10.0.0.1"]⟩,
    ⟨some ["::ffff:10.0.0.1"], none⟩]⟩

/-- Three ready addresses with two ports make six endpoints, all different. -/
theorem endpoints_of_texts_both :
    (∀ ip ∈ ofBoth.readyAddresses, IpAddress.IsText ip) ∧
    ofBoth.endpoints [4317, 55690] = [⟨"10.0.0.1:4317"⟩, ⟨"10.0.0.1:55690"⟩, ⟨"[fd00::1]:4317"⟩, ⟨"[fd00::1]:55690"⟩,
      ⟨"[::ffff:10.0.0.1]:4317"⟩, ⟨"[::ffff:10.0.0.1]:55690"⟩] ∧
    (∀ port, ⟨IpAddress.socketText "10.0.0.9" port⟩ ∉ ofBoth.endpoints [4317, 55690]) := by
  have htexts : ∀ ip ∈ ofBoth.readyAddresses, IpAddress.IsText ip := by
    have hlist : ofBoth.readyAddresses = ["10.0.0.1", "fd00::1", "::ffff:10.0.0.1"] := by decide
    rw [hlist]
    simp only [List.forall_mem_cons, List.not_mem_nil, false_implies, implies_true, and_true]
    exact ⟨⟨.v4 #v[10, 0, 0, 1], by decide⟩, ⟨.v6 #v[0xfd00, 0, 0, 0, 0, 0, 0, 1], by decide⟩,
      ⟨.v6 #v[0, 0, 0, 0, 0, 0xffff, 0x0a00, 1], by decide⟩⟩
  obtain ⟨-, hlist, -, -, hnot⟩ := endpoints_of_texts ofBoth htexts [4317, 55690]
  refine ⟨htexts, ?_, hnot "10.0.0.9" (by decide) (by decide) ⟨.v4 #v[10, 0, 0, 9], by decide⟩⟩
  rw [hlist]
  decide

end EndpointsObject

end TelemetryRouter
