import TelemetryRouter.Proofs.Acceptance
import TelemetryRouter.Proofs.FruitlessPolls

/-!
# Services of a cluster

A section for the services of a cluster is accepted by its text, before the text is cut into the name and the namespace that the cluster
is asked for, and with whatever number of ports. So an accepted section may ask for a name without characters, or for a namespace
without any (`RouterConfig.isBlank_serviceAndSpace_iff`), and without ports no poll ever finds an endpoint, however many addresses are
ready (`RouterConfig.discovers_iff`).
-/

namespace TelemetryRouter

variable {α : Type}

/-! ## What is accepted -/

/-- A section has no problems exactly when its service is not blank, its ports are not zero, and there is time for its queries and between
them. -/
theorem ClusterDiscovery.problems_eq_nil_iff (k : ClusterDiscovery) : k.problems = [] ↔
    Blank.isBlankText k.service = false ∧ 0 ∉ k.ports ∧ k.interval.isZero = false ∧ k.timeout.isZero = false := by
  rw [problems, complaints_eq_nil_iff]
  simp only [List.forall_mem_cons, List.not_mem_nil, false_implies, implies_true, and_true, List.any_eq_false, beq_iff_eq]
  refine and_congr_right (fun _ => and_congr_left (fun _ => ⟨fun h hzero => h 0 hzero rfl, ?_⟩))
  rintro h port hport rfl
  exact h hport

/-- The section of an accepted configuration has no problems. -/
theorem RouterConfig.cluster_of_validate {c : RouterConfig} (h : c.validate = .ok ()) {k : ClusterDiscovery}
    (hk : c.discovery.cluster = some k) : k.problems = [] := by
  rw [validate_eq_ok_iff, problems, DiscoveryConfig.problems, hk] at h
  simp only [List.append_eq_nil_iff] at h
  exact h.1.2

/-! ## Names and namespaces -/

/-- With no dot before it, a dot is where the characters are split. -/
theorem splitFirstDot_append {name : List Char} (h : '.' ∉ name) (rest : List Char) :
    splitFirstDot (name ++ '.' :: rest) = some (name, rest) := by
  induction name with
  | nil => rw [List.nil_append, splitFirstDot, if_pos rfl]
  | cons c name ih =>
    rw [List.mem_cons, not_or] at h
    rw [List.cons_append, splitFirstDot, if_neg (Ne.symm h.1), ih h.2]
    rfl

theorem eq_append_of_splitFirstDot {cs name rest : List Char} (h : splitFirstDot cs = some (name, rest)) :
    cs = name ++ '.' :: rest ∧ '.' ∉ name := by
  induction cs generalizing name with
  | nil => cases h
  | cons c cs ih =>
    rw [splitFirstDot] at h
    split at h
    · rename_i hdot
      obtain ⟨rfl, rfl⟩ := Prod.mk.inj (Option.some.inj h)
      exact ⟨by rw [hdot, List.nil_append], List.not_mem_nil⟩
    · rename_i hdot
      obtain ⟨⟨before, behind⟩, hsplit, heq⟩ := Option.map_eq_some_iff.1 h
      obtain ⟨rfl, rfl⟩ := Prod.mk.inj heq
      obtain ⟨rfl, hbefore⟩ := ih hsplit
      refine ⟨rfl, ?_⟩
      rw [List.mem_cons, not_or]
      exact ⟨Ne.symm hdot, hbefore⟩

namespace ClusterDiscovery

variable {k : ClusterDiscovery}

/-- Whether the text of a service is cut into a name and a namespace: no namespace is given, and a dot with something behind it follows the
name, which has none. -/
structure SplitsInto (k : ClusterDiscovery) (name space : String) : Prop where
  bare : k.space = none
  service : k.service = name ++ "." ++ space
  first : '.' ∉ name.toList
  nonempty : space ≠ ""

/-- The name and the namespace of a service that is cut. -/
theorem SplitsInto.serviceAndSpace_eq {name space : String} (h : k.SplitsInto name space) : k.serviceAndSpace = (name, space) := by
  have hsplit : splitFirstDot k.service.toList = some (name.toList, space.toList) := by
    rw [h.service, ← splitFirstDot_append h.first]
    simp
  obtain ⟨x, rest, hspace⟩ := List.exists_cons_of_ne_nil (mt String.toList_eq_nil_iff.1 h.nonempty)
  rw [serviceAndSpace, h.bare, hsplit, hspace]
  simp [← hspace]

/-- A service that is not cut has its text for a name, and the namespace that is given or `default`. -/
theorem serviceAndSpace_of_not_splits (h : ∀ name space, ¬k.SplitsInto name space) :
    k.serviceAndSpace = (k.service, k.space.getD "default") := by
  unfold serviceAndSpace
  cases hspace : k.space with
  | some space => rfl
  | none =>
    dsimp only
    split
    · rename_i name x rest hsplit
      obtain ⟨hservice, hname⟩ := eq_append_of_splitFirstDot hsplit
      refine absurd ⟨hspace, ?_, ?_, ?_⟩ (h (String.ofList name) (String.ofList (x :: rest)))
      · rw [← String.toList_inj, hservice]
        simp
      · rw [String.toList_ofList]
        exact hname
      · rw [← String.toList_inj.ne, String.toList_ofList]
        exact List.cons_ne_nil _ _
    · rfl

theorem SplitsInto.unique {name space name' space' : String} (h : k.SplitsInto name space) (h' : k.SplitsInto name' space') :
    name = name' ∧ space = space' := Prod.mk.inj (h.serviceAndSpace_eq.symm.trans h'.serviceAndSpace_eq)

end ClusterDiscovery

/-- A name that an accepted configuration asks a cluster for is blank exactly when its service is cut behind a blank name, and a namespace
exactly when a blank one is given or a service is cut before it. -/
theorem RouterConfig.isBlank_serviceAndSpace_iff {c : RouterConfig} (h : c.validate = .ok ()) {k : ClusterDiscovery}
    (hk : c.discovery.cluster = some k) :
    (Blank.isBlankText k.serviceAndSpace.1 = true ↔ ∃ name space, k.SplitsInto name space ∧ Blank.isBlankText name = true) ∧
    (Blank.isBlankText k.serviceAndSpace.2 = true ↔
      (∃ space ∈ k.space, Blank.isBlankText space = true) ∨
        ∃ name space, k.SplitsInto name space ∧ Blank.isBlankText space = true) := by
  obtain ⟨hservice, -⟩ := k.problems_eq_nil_iff.1 (cluster_of_validate h hk)
  by_cases hsplits : ∃ name space, k.SplitsInto name space
  · obtain ⟨name, space, hcut⟩ := hsplits
    have hone : ∀ p : String → String → Prop, (∃ name' space', k.SplitsInto name' space' ∧ p name' space') ↔ p name space := by
      intro p
      constructor
      · rintro ⟨name', space', hcut', hp⟩
        obtain ⟨rfl, rfl⟩ := hcut.unique hcut'
        exact hp
      · exact fun hp => ⟨name, space, hcut, hp⟩
    rw [hcut.serviceAndSpace_eq, hone, hone, hcut.bare]
    simp
  · have hnone : ∀ name space, ¬k.SplitsInto name space := fun name space hcut => hsplits ⟨name, space, hcut⟩
    rw [ClusterDiscovery.serviceAndSpace_of_not_splits hnone]
    have hdefault : Blank.isBlankText "default" = false := by decide
    cases hspace : k.space with
    | none => simp [hnone, hservice, hdefault]
    | some space => simp [hnone, hservice]

/-- A configuration that asks a cluster for a service, with the defaults else. -/
def RouterConfig.ofService (service : String) (ports : List UInt16) : RouterConfig :=
  { RouterConfig.default with discovery := ⟨none, none, some { ClusterDiscovery.default with service := service, ports := ports }⟩ }

/-- The service `otelcol.observability` is accepted and cut into a name and a namespace, neither of which is blank. -/
theorem RouterConfig.serviceAndSpace_otelcol :
    ∃ k, (ofService "otelcol.observability" [standardPort]).validate = .ok () ∧
      (ofService "otelcol.observability" [standardPort]).discovery.cluster = some k ∧
      k.SplitsInto "otelcol" "observability" ∧
      ¬(∃ name space, k.SplitsInto name space ∧ Blank.isBlankText name = true) ∧
      ¬((∃ space ∈ k.space, Blank.isBlankText space = true) ∨
        ∃ name space, k.SplitsInto name space ∧ Blank.isBlankText space = true) := by
  have hvalidate : (ofService "otelcol.observability" [standardPort]).validate = .ok () := by rfl
  obtain ⟨hname, hspace⟩ := isBlank_serviceAndSpace_iff hvalidate rfl
  have hcut : ClusterDiscovery.SplitsInto { ClusterDiscovery.default with service := "otelcol.observability", ports := [standardPort] }
      "otelcol" "observability" := ⟨rfl, by decide, by decide, by decide⟩
  refine ⟨_, hvalidate, rfl, hcut, ?_, ?_⟩
  · rw [← hname, hcut.serviceAndSpace_eq]
    decide
  · rw [← hspace, hcut.serviceAndSpace_eq]
    decide

/-- The service `.backends` is accepted, but it has no name. -/
theorem RouterConfig.isBlank_name_backends :
    ∃ k, (ofService ".backends" [standardPort]).validate = .ok () ∧
      (ofService ".backends" [standardPort]).discovery.cluster = some k ∧ k.serviceAndSpace = ("", "backends") ∧
      Blank.isBlankText k.serviceAndSpace.1 = true :=
  ⟨_, rfl, rfl, by decide, by decide⟩

/-! ## Ready addresses and ports -/

namespace EndpointsObject

/-- The ready addresses of an object. -/
def readyAddresses (o : EndpointsObject) : List String := (o.subsets.getD []).flatMap (fun s => s.ready.getD [])

/-- The endpoints of an object are its ready addresses, each with every port. -/
theorem endpoints_eq (o : EndpointsObject) (ports : List UInt16) :
    o.endpoints ports = o.readyAddresses.flatMap (fun ip => ports.map (fun port => (Endpoint.mk ip).withDefaultPort port)) := by
  rw [readyAddresses, List.flatMap_assoc, endpoints]

/-- An object has as many endpoints as there are ready addresses for each port. -/
theorem length_endpoints (o : EndpointsObject) (ports : List UInt16) :
    (o.endpoints ports).length = o.readyAddresses.length * ports.length := by
  rw [endpoints_eq, List.length_flatMap]
  simp

/-- An object has no endpoints exactly when there are no ready addresses or no ports. -/
theorem endpoints_eq_nil_iff (o : EndpointsObject) (ports : List UInt16) :
    o.endpoints ports = [] ↔ o.readyAddresses = [] ∨ ports = [] := by
  rw [← List.length_eq_zero_iff, length_endpoints, Nat.mul_eq_zero, List.length_eq_zero_iff, List.length_eq_zero_iff]

end EndpointsObject

theorem succeeds_ok (es : List Endpoint) : succeeds (.ok es) = !es.isEmpty := by
  cases es <;> rfl

/-- Without ports, nothing that a query gives counts as a success. -/
theorem Source.succeeds_ofObject_nil (service space : String) (result : Except String (Option EndpointsObject)) :
    succeeds (ofObject service space [] result) = false := by
  cases result with
  | error reason => rfl
  | ok object =>
    cases object with
    | none => rfl
    | some o =>
      show succeeds (.ok (o.endpoints [])) = false
      rw [succeeds_ok, (o.endpoints_eq_nil_iff []).2 (.inr rfl), List.isEmpty_nil, Bool.not_true]

/-- What a section's cluster may answer: a reply to the query for its service, or that the query failed. -/
def ClusterDiscovery.Replies (k : ClusterDiscovery) (a : SourceAnswer) : Prop :=
  (∃ reason, a.result = .error reason) ∨
    ∃ status object, a.result = Source.ofReply k.serviceAndSpace.1 k.serviceAndSpace.2 k.ports status object

/-- Without ports, whatever a cluster answers is no success. -/
theorem ClusterDiscovery.Replies.not_succeeds {k : ClusterDiscovery} {a : SourceAnswer} (h : k.Replies a) (hports : k.ports = []) :
    succeeds a.result = false := by
  obtain ⟨reason, hresult⟩ | ⟨status, object, hresult⟩ := h
  · rw [hresult]
    rfl
  · rw [hresult, hports]
    exact Source.succeeds_ofObject_nil _ _ _

namespace Run

/-- Whether the resolver of a run polls a section's cluster, and gets no list from elsewhere. -/
structure AsksCluster (r : Run α) (k : ClusterDiscovery) : Prop where
  resolver : ∃ source : Source, r.resolver = .polling source k.interval k.timeout ∧
    ∀ a ∈ source.script.queue ++ source.script.last.toList, k.Replies a
  replies : ∀ n answers, r.action n = .answer answers → ∀ a ∈ answers, k.Replies a
  pushes : ∀ n endpoints, r.action n ≠ .request (.push endpoints)

theorem AsksCluster.givesNoList {r : Run α} {k : ClusterDiscovery} (h : r.AsksCluster k) (hports : k.ports = []) : r.GivesNoList := by
  obtain ⟨source, heq, hreplies⟩ := h.resolver
  refine ⟨⟨source, _, _, heq⟩, fun a ha => ?_, fun n => ?_⟩
  · rw [heq] at ha
    exact (hreplies a ha).not_succeeds hports
  · unfold Action.GivesNoList
    split
    · rename_i endpoints haction
      exact h.pushes n endpoints haction
    · rename_i answers haction
      exact fun a ha => (h.replies n answers haction a ha).not_succeeds hports
    · trivial

end Run

/-- The ports of an accepted configuration are not zero. An object with a ready address has endpoints, which count as a success, exactly
when there is a port; without ports a resolver that polls the cluster never knows of an endpoint, and counts no success. -/
theorem RouterConfig.discovers_iff {c : RouterConfig} (h : c.validate = .ok ()) {k : ClusterDiscovery}
    (hk : c.discovery.cluster = some k) :
    0 ∉ k.ports ∧
    (∀ o : EndpointsObject, o.readyAddresses ≠ [] →
      (o.endpoints k.ports ≠ [] ↔ k.ports ≠ []) ∧
      ∀ (b : Balancer α) (success : Bool),
        (b.concludeListing (Source.ofReply k.serviceAndSpace.1 k.serviceAndSpace.2 k.ports 200 (some o))).1.metrics.resolutions
            b.resolver.name success =
          b.metrics.resolutions b.resolver.name success + if success = !k.ports.isEmpty then 1 else 0) ∧
    (k.ports = [] → ∀ r : Run α, r.AsksCluster k → ∀ n, (r.state n).resolver.known = [] ∧
      (r.state n).metrics.resolutions (r.state n).resolver.name true = 0) := by
  obtain ⟨-, hports, -⟩ := k.problems_eq_nil_iff.1 (cluster_of_validate h hk)
  refine ⟨hports, fun o ho => ?_, fun hnil r hr n => ?_⟩
  · have hnonempty : o.endpoints k.ports = [] ↔ k.ports = [] := by rw [o.endpoints_eq_nil_iff, or_iff_right ho]
    refine ⟨not_congr hnonempty, fun b success => ?_⟩
    have hsucceeds : succeeds (Source.ofReply k.serviceAndSpace.1 k.serviceAndSpace.2 k.ports 200 (some o)) = !k.ports.isEmpty := by
      show succeeds (.ok (o.endpoints k.ports)) = _
      rw [succeeds_ok, Bool.eq_iff_iff]
      simp [hnonempty]
    rw [Balancer.concludeListing_eq, (b.hear_frame _).2 success, hsucceeds]
  · have hfruitless := (hr.givesNoList hnil).fruitless n
    exact ⟨hfruitless.known, hfruitless.uncounted⟩

/-- An object with one ready address. -/
def EndpointsObject.ofAddress (address : String) : EndpointsObject := ⟨some [⟨some [address], none⟩]⟩

/-- A run of a resolver that polls a cluster for the service `otelcol` with some ports, whose reply is an object with one ready address. It
is asked for a resolution. -/
def Run.ofPorts (ports : List UInt16) : Run Unit where
  options := ⟨⟨1, .ofSeconds 30, .ofSeconds 30⟩, none, none⟩
  adapter := ⟨.logs, fun _ _ => none⟩
  resolver := .polling (.cluster "otelcol" "default" [.immediate (Source.ofReply "otelcol" "default" ports 200 (some
    (EndpointsObject.ofAddress "10.0.0.1")))]) (.ofSeconds 10) (.ofSeconds 5)
  backends := ⟨[]⟩
  action := fun n => if n = 0 then .request .resolve else .move 0 0

/-- With the standard port the object has an endpoint. With no port it has none, and the poll that hears of it fails. -/
theorem RouterConfig.discovers_iff_otelcol :
    (ofService "otelcol" [standardPort]).validate = .ok () ∧ (ofService "otelcol" []).validate = .ok () ∧
    (EndpointsObject.ofAddress "10.0.0.1").readyAddresses ≠ [] ∧
    (EndpointsObject.ofAddress "10.0.0.1").endpoints [standardPort] ≠ [] ∧
    (∃ k, (ofService "otelcol" []).discovery.cluster = some k ∧ (Run.ofPorts []).AsksCluster k) ∧
    (∀ n, ((Run.ofPorts []).state n).resolver.known = []) ∧
    ((Run.ofPorts []).state 4).metrics.resolutions "k8s" false = 1 := by
  have hwith : (ofService "otelcol" [standardPort]).validate = .ok () := by rfl
  have hwithout : (ofService "otelcol" []).validate = .ok () := by rfl
  have hready : (EndpointsObject.ofAddress "10.0.0.1").readyAddresses ≠ [] := by decide
  have hasks : (Run.ofPorts []).AsksCluster { ClusterDiscovery.default with service := "otelcol", ports := [] } := by
    refine ⟨⟨_, rfl, fun a ha => ?_⟩, fun n answers haction => ?_, fun n endpoints haction => ?_⟩
    · obtain rfl := List.mem_singleton.1 ha
      exact .inr ⟨200, some (.ofAddress "10.0.0.1"), rfl⟩
    · simp only [Run.ofPorts] at haction
      split at haction <;> cases haction
    · simp only [Run.ofPorts] at haction
      split at haction <;> cases haction
  have hnever := (discovers_iff (α := Unit) hwithout rfl).2.2 rfl _ hasks
  exact ⟨hwith, hwithout, hready, ((discovers_iff (α := Unit) hwith rfl).2.1 _ hready).1.2 (List.cons_ne_nil _ _),
    ⟨_, rfl, hasks⟩, fun n => (hnever n).1, by decide +kernel⟩

/-- A section without ports is accepted, but an object with a ready address has no endpoints then. -/
theorem RouterConfig.endpoints_eq_nil_portless :
    ∃ k, (ofService "otelcol" []).validate = .ok () ∧ (ofService "otelcol" []).discovery.cluster = some k ∧
      (EndpointsObject.ofAddress "10.0.0.1").readyAddresses ≠ [] ∧
      (EndpointsObject.ofAddress "10.0.0.1").endpoints k.ports = [] :=
  ⟨_, rfl, rfl, by decide, by decide⟩

end TelemetryRouter
