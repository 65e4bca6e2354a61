import TelemetryRouter.Proofs.Acceptance
import TelemetryRouter.Proofs.DurationText
import TelemetryRouter.Proofs.Retries

/-!
# Time limits that the clock cannot represent

A dispatch whose caller sets no deadline has one from the time limit of the configuration, added to the time at which it begins. The
addition is not checked beforehand, and validation does not look at the time limit (`RouterConfig.validate_withTimeLimit`), which may be
any duration that can be written down. So an accepted configuration does not say that its dispatches come to a result: a dispatch that has
somewhere to route to breaks off exactly when the sum is beyond the range of the clock (`Run.breaksOff_iff`).
-/

namespace TelemetryRouter

variable {α : Type}

/-! ## Sums beyond the clock -/

/-- The clock cannot represent a sum exactly when it reaches the limit of its range. -/
theorem Instant.after?_eq_none_iff (now : Nat) (d : Duration) : after? now d = none ↔ limit ≤ after now d := by
  unfold after?
  split
  · rename_i hlt
    exact ⟨(fun h => nomatch h), fun hle => absurd hlt (Nat.not_lt.2 hle)⟩
  · rename_i hnot
    exact ⟨fun _ => Nat.not_lt.1 hnot, fun _ => rfl⟩

/-! ## What validation leaves open -/

/-- The configuration with another time limit of exports. -/
def RouterConfig.withTimeLimit (c : RouterConfig) (limit : Option Duration) : RouterConfig :=
  { c with protocol := { c.protocol with timeout := limit } }

theorem RouterConfig.validate_withTimeLimit (c : RouterConfig) (limit : Option Duration) :
    (c.withTimeLimit limit).validate = c.validate := rfl

/-- A balancer that could be made of a configuration has its time limit, and the configuration was accepted. -/
theorem Balancer.ofConfig_eq_ok {platform : Platform} {c : RouterConfig} {adapter : Adapter α} {backends : Backends}
    {b : Balancer α} (h : ofConfig platform c adapter backends = .ok b) :
    c.validate = .ok () ∧ b.options.exportTimeout = c.protocol.timeout := by
  unfold ofConfig at h
  cases hvalidate : c.validate with
  | error fault =>
    rw [hvalidate] at h
    cases h
  | ok u =>
    cases hresolver : Resolver.ofConfig platform c.discovery with
    | error fault =>
      rw [hvalidate, hresolver] at h
      cases h
    | ok resolver =>
      rw [hvalidate, hresolver] at h
      obtain rfl := Except.ok.inj h
      exact ⟨rfl, rfl⟩

/-! ## Dispatches of accepted configurations -/

namespace Run

variable {r : Run α} {platform : Platform} {c : RouterConfig} {n : Nat} {batch : Batch α} {context : DispatchContext}

/-- All along a run, a dispatch without a deadline goes beyond the clock exactly by the time limit of the configuration. -/
theorem BuiltFrom.clockOverflows_iff (hr : r.BuiltFrom platform c) (hdeadline : context.deadline = none) (k : Nat) :
    (r.state k).ClockOverflows context ↔
      ∃ limit, c.protocol.timeout = some limit ∧ Instant.limit ≤ Instant.after (r.state k).now limit := by
  have hlimit : (r.state k).options.exportTimeout = c.protocol.timeout := by
    rw [r.options_state k]
    exact (Balancer.ofConfig_eq_ok hr).2
  simp only [Balancer.ClockOverflows, hdeadline, true_and, hlimit, Instant.after?_eq_none_iff]

/-- How the dispatch of a batch without a deadline of its own ends, with a balancer made of a configuration. -/
structure LimitedBy (r : Run α) (c : RouterConfig) (t n : Nat) (batch : Batch α) (context : DispatchContext) : Prop where
  ends : r.Serves t → ∃ m result, n < m ∧ (r.state m).outcome? t = some (.dispatched result)
  /-- It breaks off exactly when it had somewhere to route to as it began, and the time limit was too long for the clock then. Otherwise it
  is refused for lack of endpoints, or it accounts for every item. -/
  outcome : ∀ m result, n < m → (r.state m).outcome? t = some (.dispatched result) → ∃ k, n < k ∧ k < m ∧ r.Begins t batch context k ∧
    (result = .clockOverflow ↔ (r.state k).ring.endpoints ≠ [] ∧
      ∃ limit, c.protocol.timeout = some limit ∧ Instant.limit ≤ Instant.after (r.state k).now limit) ∧
    (result ≠ .clockOverflow → result = .failed (.routing .noEndpoints) ∨ ∃ parcels, r.Delivers t n batch k m result parcels)

/-- With every balancer made of a configuration, every dispatch of a batch with items and without a deadline ends, but it breaks off
exactly when there is somewhere to route to and the time limit goes beyond the range of the clock. The configuration being accepted does
not exclude this: it is accepted with every other time limit too, and every time limit is read from some text. -/
theorem breaksOff_iff (hr : r.BuiltFrom platform c) (hrequest : r.action n = .request (.dispatch batch context))
    (hitems : batch.isEmpty = false) (hdeadline : context.deadline = none) :
    (∀ limit, (c.withTimeLimit limit).validate = .ok ()) ∧ (∀ limit : Duration, Duration.read limit.print = .ok limit) ∧
      r.LimitedBy c (r.state n).nextTask n batch context := by
  refine ⟨fun limit => ?_, Duration.read_print, fun hs => hs.ends hrequest, fun m result hm houtcome => ?_⟩
  · rw [c.validate_withTimeLimit]
    exact (Balancer.ofConfig_eq_ok hr).1
  · obtain ⟨k, haccounts⟩ := (answers_of_outcome hrequest hm houtcome).accounts hitems
    obtain ⟨hlt, hbefore, hbegins⟩ := haccounts.begins
    refine ⟨k, hlt, hbefore, hbegins, ?_, fun hnot => ?_⟩
    · rw [haccounts.overflow, hr.clockOverflows_iff hdeadline]
    · by_cases hmembers : (r.state k).ring.endpoints = []
      · exact .inl (haccounts.unrouted.2 hmembers)
      · exact .inr (haccounts.delivers hmembers (fun hoverflows => hnot (haccounts.overflow.2 ⟨hmembers, hoverflows⟩)))

/-- The run of a configuration with one host, with a time limit for exports. -/
def ofHostLimited (host : String) (limit : Duration) : Run Unit :=
  { ofHost host with options := { (ofHost host).options with exportTimeout := some limit } }

/-- The run is one of the configuration with the time limit, if that is accepted. -/
theorem builtFrom_ofHostLimited (host : String) (limit : Duration) (h : (RouterConfig.ofHost host).validate = .ok ()) :
    (ofHostLimited host limit).BuiltFrom .isolated ((RouterConfig.ofHost host).withTimeLimit (some limit)) :=
  Balancer.ofConfig_of_validate (c := (RouterConfig.ofHost host).withTimeLimit (some limit)) h
    (Resolver.ofConfig_of_fixed _ rfl rfl (List.cons_ne_nil _ _)) _ _

/-- With the host `a` and a time limit of ten seconds, the dispatch of one item ends, and not by breaking off. -/
theorem breaksOff_iff_tenSeconds :
    (ofHostLimited "a" (.ofSeconds 10)).BuiltFrom .isolated
        ((RouterConfig.ofHost "a").withTimeLimit (some (.ofSeconds 10))) ∧
      (ofHostLimited "a" (.ofSeconds 10)).LimitedBy ((RouterConfig.ofHost "a").withTimeLimit (some (.ofSeconds 10)))
        ((ofHostLimited "a" (.ofSeconds 10)).state 11).nextTask 11 oneItem ⟨none, none⟩ ∧
      (((ofHostLimited "a" (.ofSeconds 10)).state 17).outcome? ((ofHostLimited "a" (.ofSeconds 10)).state 11).nextTask).isSome = true ∧
      endsInOverflow (((ofHostLimited "a" (.ofSeconds 10)).state 17).outcome?
        ((ofHostLimited "a" (.ofSeconds 10)).state 11).nextTask) = false := by
  have hbuilt := builtFrom_ofHostLimited "a" (.ofSeconds 10) (by rfl)
  exact ⟨hbuilt, (breaksOff_iff hbuilt rfl rfl rfl).2.2, by decide +kernel, by decide +kernel⟩

/-- The longest time limit that can be written in seconds is read and accepted, and the dispatch of a configuration with the host `a` and
this limit breaks off, although its endpoint is on the ring. -/
theorem breaksOff_longest : Duration.read "18446744073709551615s" = .ok (.ofSeconds 18446744073709551615) ∧
    ((RouterConfig.ofHost "a").withTimeLimit (some (.ofSeconds 18446744073709551615))).validate = .ok () ∧
    (ofHostLimited "a" (.ofSeconds 18446744073709551615)).BuiltFrom .isolated
      ((RouterConfig.ofHost "a").withTimeLimit (some (.ofSeconds 18446744073709551615))) ∧
    (ofHostLimited "a" (.ofSeconds 18446744073709551615)).action 11 = .request (.dispatch oneItem ⟨none, none⟩) ∧
    oneItem.isEmpty = false ∧
    ((ofHostLimited "a" (.ofSeconds 18446744073709551615)).state 12).ring.endpoints = [⟨"a"⟩] ∧
    ((ofHostLimited "a" (.ofSeconds 18446744073709551615)).state 13).outcome?
      ((ofHostLimited "a" (.ofSeconds 18446744073709551615)).state 11).nextTask = some (.dispatched .clockOverflow) :=
  ⟨by rfl, by rfl, builtFrom_ofHostLimited "a" _ (by rfl), rfl, rfl, by decide +kernel, eq_of_endsInOverflow (by decide +kernel)⟩

end Run

end TelemetryRouter
