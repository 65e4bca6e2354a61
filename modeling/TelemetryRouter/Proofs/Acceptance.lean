import TelemetryRouter.Proofs.FixedLists

/-!
# What validation accepts can be run

A configuration is validated in one place, and what it asks for is decided again where the resolver is made, where the loops of the
background begin and where the log is set up. `RouterConfig.Runnable` says that these agree: whatever else an accepted configuration
holds, its resolver and its balancer can be made, there is time between the signals of its loops, and its log has a format and a level
of its own. A fixed list has a host, so a balancer that was started with it has somewhere to route to until it is stopped or another
list is applied.
-/

namespace TelemetryRouter

variable {α : Type}

/-! ## What is checked -/

theorem complaints_eq_nil_iff (checks : List (Bool × String)) : complaints checks = [] ↔ ∀ c ∈ checks, c.1 = false := by
  rw [complaints, List.map_eq_nil_iff, List.filter_eq_nil_iff]
  simp only [Bool.not_eq_true]

/-- A configuration is accepted exactly when there are no problems. -/
theorem RouterConfig.validate_eq_ok_iff (c : RouterConfig) : c.validate = .ok () ↔ c.problems = [] := by
  unfold validate
  split
  · rename_i heq
    exact ⟨fun _ => heq, fun _ => rfl⟩
  · rename_i hne
    exact ⟨(fun h => nomatch h), fun h => absurd h hne⟩

/-- There is no problem with the number of ways of discovery exactly when there is one of them. -/
theorem DiscoveryConfig.countProblems_eq_nil_iff (d : DiscoveryConfig) : d.countProblems = [] ↔ d.count = 1 := by
  unfold countProblems
  split
  · rename_i heq
    simp [heq]
  · rename_i heq
    simp [heq]
  · rename_i hne
    simpa using hne

/-- A fixed list has no problems exactly when it has hosts, and all of them have names. -/
theorem StaticDiscovery.problems_eq_nil_iff (s : StaticDiscovery) :
    s.problems = [] ↔ s.hostnames ≠ [] ∧ ∀ h ∈ s.hostnames, Blank.isBlankText h = false := by
  rw [problems, List.append_eq_nil_iff, complaints_eq_nil_iff, List.map_eq_nil_iff, List.filter_eq_nil_iff]
  refine and_congr (by simp) ⟨fun hall h hmem => ?_, fun hall h hmem => ?_⟩
  · obtain ⟨i, hi⟩ := List.getElem?_of_mem hmem
    exact Bool.eq_false_iff.2 (hall (h, i) (List.mem_zipIdx_iff_getElem?.2 hi))
  · exact Bool.eq_false_iff.1 (hall h.1 (List.fst_mem_of_mem_zipIdx hmem))

/-- What an accepted configuration is like. -/
structure RouterConfig.Accepted (c : RouterConfig) : Prop where
  count : c.discovery.count = 1
  hosts : ∀ s ∈ c.discovery.fixed, s.hostnames ≠ []
  lookup : ∀ l ∈ c.discovery.dns, Blank.isBlankText l.hostname = false ∧ l.interval.isZero = false
  interval : c.pool.reconcileInterval.isZero = false
  level : (LogLevel.ofName? (Lowercase.lowercase c.logging.level)).isSome = true
  format : (LogFormat.ofName? (Lowercase.lowercase c.logging.format)).isSome = true

theorem RouterConfig.accepted_of_validate {c : RouterConfig} (h : c.validate = .ok ()) : c.Accepted := by
  rw [validate_eq_ok_iff, problems, DiscoveryConfig.problems] at h
  simp only [List.append_eq_nil_iff, complaints_eq_nil_iff, List.forall_mem_cons, List.not_mem_nil, false_implies, implies_true,
    and_true] at h
  obtain ⟨⟨⟨⟨hcount, hfixed⟩, hdns⟩, -⟩, -, hinterval, -, hlevel, hformat⟩ := h
  refine ⟨c.discovery.countProblems_eq_nil_iff.1 hcount, fun s hs => ?_, fun l hl => ?_, hinterval, ?_, ?_⟩
  · rw [Option.mem_def.1 hs] at hfixed
    exact (s.problems_eq_nil_iff.1 hfixed).1
  · rw [Option.mem_def.1 hl] at hdns
    have hall := (complaints_eq_nil_iff _).1 hdns
    exact ⟨hall _ List.mem_cons_self, hall _ (List.mem_cons_of_mem _ List.mem_cons_self)⟩
  · simpa using hlevel
  · simpa using hformat

/-! ## What is made of it -/

theorem Resolver.fixed_of_ne_nil {es : List Endpoint} (h : es ≠ []) : fixed es = .ok (new .fixed (Endpoint.normalize es)) := by
  have hne : Endpoint.normalize es ≠ [] := mt (fun hnil => (Ring.endpoints_build_eq_nil_iff es 0).1 hnil) h
  unfold fixed
  split
  · rename_i hnil
    exact absurd hnil hne
  · rfl

/-- Of a fixed list with hosts, as the only way of discovery, the resolver is the fixed one of the list. -/
theorem Resolver.ofConfig_of_fixed (platform : Platform) {d : DiscoveryConfig} {s : StaticDiscovery} (hcount : d.count = 1)
    (hs : d.fixed = some s) (hhosts : s.hostnames ≠ []) :
    ofConfig platform d = .ok (new .fixed (Endpoint.normalize (s.hostnames.map Endpoint.mk))) := by
  unfold ofConfig
  rw [hcount, hs]
  exact fixed_of_ne_nil (mt List.map_eq_nil_iff.1 hhosts)

/-- The source that looks up a host on a platform, without a record. -/
def Source.lookup (platform : Platform) (hostname : String) (port : Option UInt16) : Source :=
  ⟨"dns", none, false, .ofList ((platform.lookup hostname).map (hostAnswer hostname port))⟩

/-- Of a host with a name there is the source that looks it up. -/
theorem Source.ofHost_eq_lookup (platform : Platform) {hostname : String} (h : Blank.isBlankText hostname = false)
    (port : Option UInt16) : ofHost platform hostname port = .ok (lookup platform hostname port) := by
  unfold ofHost dns
  rw [if_neg (Bool.eq_false_iff.1 h)]
  rfl

/-- Of the lookup of a host, as the only way of discovery, the resolver polls the host at its intervals. -/
theorem Resolver.ofConfig_of_dns (platform : Platform) {d : DiscoveryConfig} {l : DnsDiscovery} (hcount : d.count = 1)
    (hl : d.dns = some l) (hblank : Blank.isBlankText l.hostname = false) :
    ofConfig platform d = .ok (polling (.lookup platform l.hostname l.port) l.interval l.timeout) := by
  have hnone : d.fixed = none := by
    rcases hfixed : d.fixed with _ | s
    · rfl
    · rw [DiscoveryConfig.count, hfixed, hl] at hcount
      simp at hcount
      omega
  unfold ofConfig
  rw [hcount, hnone, hl]
  show (Source.ofHost platform l.hostname l.port >>= _) = _
  rw [Source.ofHost_eq_lookup platform hblank]
  rfl

theorem Ticker.isSome_start? (now : Nat) {period : Duration} (h : period.isZero = false) : (start? now period).isSome = true := by
  rw [start?, if_neg (Bool.eq_false_iff.1 h)]
  rfl

/-- The balancer of an accepted configuration is a new one with its settings and its resolver. -/
theorem Balancer.ofConfig_of_validate {platform : Platform} {c : RouterConfig} {resolver : Resolver}
    (h : c.validate = .ok ()) (hresolver : Resolver.ofConfig platform c.discovery = .ok resolver) (adapter : Adapter α)
    (backends : Backends) : ofConfig platform c adapter backends =
      .ok (new ⟨c.settings, c.protocol.timeout, some c.protocol.defaultPort⟩ adapter resolver backends) := by
  unfold ofConfig
  rw [h, hresolver]
  rfl

/-! ## Runs of a configuration -/

/-- Whether the loops of the background could begin: there is time between the regular passes, and between the polls of a resolver that
has any. -/
structure Balancer.Ticks (b : Balancer α) : Prop where
  passes : (Ticker.start? b.now b.options.settings.reconcileInterval).isSome = true
  polls : ∀ source interval timeout, b.resolver.kind = .polling source interval timeout → (Ticker.start? b.now interval).isSome = true

namespace Run

/-- Whether the balancer of a run is made of a configuration. -/
def BuiltFrom (r : Run α) (platform : Platform) (c : RouterConfig) : Prop :=
  Balancer.ofConfig platform c r.adapter r.backends = .ok (r.state 0)

section BuiltFrom

variable {r : Run α} {platform : Platform} {c : RouterConfig} {resolver : Resolver}

/-- A run of an accepted configuration has its settings and its resolver. -/
theorem BuiltFrom.eq (hr : r.BuiltFrom platform c) (h : c.validate = .ok ())
    (hresolver : Resolver.ofConfig platform c.discovery = .ok resolver) :
    r.options = ⟨c.settings, c.protocol.timeout, some c.protocol.defaultPort⟩ ∧ r.resolver = resolver := by
  have hstate := Except.ok.inj (hr.symm.trans (Balancer.ofConfig_of_validate h hresolver r.adapter r.backends))
  exact ⟨congrArg Balancer.options hstate, congrArg Balancer.resolver hstate⟩

/-- The loops of a balancer have time between their signals, all along a run, if they have it at first. -/
theorem ticks (r : Run α) (hpasses : r.options.settings.reconcileInterval.isZero = false)
    (hpolls : ∀ source interval timeout, r.resolver.kind.unscripted = .polling source interval timeout → interval.isZero = false)
    (n : Nat) : (r.state n).Ticks where
  passes := Ticker.isSome_start? _ (by rw [r.options_state n]; exact hpasses)
  polls := fun source interval timeout hkind => by
    have hunscripted := r.unscripted_eq n
    rw [hkind] at hunscripted
    exact Ticker.isSome_start? _ (hpolls _ _ _ hunscripted.symm)

end BuiltFrom

/-- Whether, from a state to a later one, a balancer has somewhere to route to: it has a ring with members, and whatever dispatch failed
for lack of them had failed before. -/
structure Routes (r : Run α) (ring : Ring) (n m : Nat) : Prop where
  published : (r.state m).ring = ring
  members : ring.isEmpty = false
  routed : ∀ j < m, ∀ batch context, r.action j = .request (.dispatch batch context) →
    (r.state m).outcome? (r.state j).nextTask = some (.dispatched (.failed (.routing .noEndpoints))) →
      (r.state n).outcome? (r.state j).nextTask = some (.dispatched (.failed (.routing .noEndpoints)))

/-- A balancer with a fixed resolver that knows an endpoint has somewhere to route to once it was started, as long as it is left
alone. -/
theorem Started.routes {r : Run α} {k n m : Nat} (hs : r.Started k n) (hnm : n ≤ m) (halone : r.LeftAlone k m)
    (hfixed : r.resolver.kind = .fixed) (hknown : r.resolver.known ≠ []) (hlist : r.KeepsList) : r.Routes r.listRing n m := by
  have hmembers : r.listRing.endpoints ≠ [] := mt (Ring.endpoints_build_eq_nil_iff _ _).1 hknown
  have hring : ∀ i, n ≤ i → i ≤ m → (r.state i).ring = r.listRing := fun i hni him =>
    ring_of_started hs hni (fun j hj => halone j (Nat.lt_of_lt_of_le hj him)) hfixed hlist
  refine ⟨hring m hnm (Nat.le_refl m), List.isEmpty_eq_false_iff.2 hmembers, fun j hj batch context hrequest houtcome => ?_⟩
  obtain ⟨i, him, hnone, hended⟩ := begins_of_unrouted hrequest hj houtcome
  have hin : i < n := Nat.lt_of_not_le (fun hni => hmembers (hring i hni (Nat.le_of_lt him) ▸ hnone))
  exact outcome?_of_le hin hended

/-- A dispatch that is asked for from the first of the two states on does not fail for lack of endpoints. -/
theorem Routes.not_unrouted {r : Run α} {ring : Ring} {n m j : Nat} (h : r.Routes ring n m) (hnj : n ≤ j) (hjm : j < m)
    {batch : Batch α} {context : DispatchContext} (hrequest : r.action j = .request (.dispatch batch context)) :
    (r.state m).outcome? (r.state j).nextTask ≠ some (.dispatched (.failed (.routing .noEndpoints))) := by
  intro houtcome
  have hthere := h.routed j hjm batch context hrequest houtcome
  have hnone : (r.state n).task? (r.state j).nextTask = none := List.getElem?_eq_none (r.nextTask_le hnj)
  rw [Balancer.outcome?, hnone] at hthere
  cases hthere

end Run

/-- Whether a configuration can be run on a platform. -/
structure RouterConfig.Runnable (α : Type) (platform : Platform) (c : RouterConfig) : Prop where
  /-- Its resolver can be made, and with it the balancer, which has its settings. -/
  built : ∃ resolver, Resolver.ofConfig platform c.discovery = .ok resolver ∧ ∀ (adapter : Adapter α) (backends : Backends),
    Balancer.ofConfig platform c adapter backends =
      .ok (.new ⟨c.settings, c.protocol.timeout, some c.protocol.defaultPort⟩ adapter resolver backends)
  /-- The resolver of a fixed list knows the list. -/
  fixed : ∀ s ∈ c.discovery.fixed,
    Resolver.ofConfig platform c.discovery = .ok (.new .fixed (Endpoint.normalize (s.hostnames.map Endpoint.mk)))
  /-- The resolver of a lookup polls what the platform finds for the hostname, with the port, at the intervals of the section and within its
  time limit. -/
  dns : ∀ l ∈ c.discovery.dns,
    Resolver.ofConfig platform c.discovery = .ok (.polling (.lookup platform l.hostname l.port) l.interval l.timeout)
  /-- The loops of the background never find that there is no time between their signals. -/
  ticks : ∀ r : Run α, r.BuiltFrom platform c → ∀ n, (r.state n).Ticks
  format : ∃ f, LogFormat.read c.logging.format = .ok f
  /-- The level of the log is that of its name, and not the one for unknown names. -/
  level : ∃ l, LogLevel.ofName? (Lowercase.lowercase c.logging.level) = some l ∧ LogLevel.read c.logging.level = l
  /-- A balancer with a fixed list that was started has the ring of the list, which has members, until it is to be stopped or another list
  to be applied; so no dispatch fails for lack of endpoints from then on. -/
  routes : ∀ s ∈ c.discovery.fixed, ∀ r : Run α, r.BuiltFrom platform c → r.KeepsList → ∀ k n m, r.Started k n → n ≤ m →
    r.LeftAlone k m → r.Routes (Ring.build (s.hostnames.map Endpoint.mk) c.settings.virtualNodes) n m

/-- Whatever a configuration with a fixed list or a lookup holds, it can be run on every platform if validation accepts it. -/
theorem RouterConfig.runnable_of_validate (platform : Platform) (c : RouterConfig)
    (hway : c.discovery.fixed.isSome = true ∨ c.discovery.dns.isSome = true) (h : c.validate = .ok ()) :
    c.Runnable α platform := by
  have haccepted := accepted_of_validate h
  have hfixed : ∀ s ∈ c.discovery.fixed,
      Resolver.ofConfig platform c.discovery = .ok (.new .fixed (Endpoint.normalize (s.hostnames.map Endpoint.mk))) :=
    fun s hs => Resolver.ofConfig_of_fixed platform haccepted.count hs (haccepted.hosts s hs)
  have hdns : ∀ l ∈ c.discovery.dns,
      Resolver.ofConfig platform c.discovery = .ok (.polling (.lookup platform l.hostname l.port) l.interval l.timeout) :=
    fun l hl => Resolver.ofConfig_of_dns platform haccepted.count hl (haccepted.lookup l hl).1
  have hresolver : ∃ resolver, Resolver.ofConfig platform c.discovery = .ok resolver ∧
      ∀ source interval timeout, resolver.kind.unscripted = .polling source interval timeout → interval.isZero = false := by
    rcases hway with hway | hway
    · obtain ⟨s, hs⟩ := Option.isSome_iff_exists.1 hway
      exact ⟨_, hfixed s hs, fun _ _ _ hkind => nomatch hkind⟩
    · obtain ⟨l, hl⟩ := Option.isSome_iff_exists.1 hway
      refine ⟨_, hdns l hl, fun source interval timeout hkind => ?_⟩
      cases hkind
      exact (haccepted.lookup l hl).2
  obtain ⟨resolver, hresolver, hpolls⟩ := hresolver
  obtain ⟨l, hl⟩ := Option.isSome_iff_exists.1 haccepted.level
  obtain ⟨f, hf⟩ := Option.isSome_iff_exists.1 haccepted.format
  refine ⟨⟨resolver, hresolver, fun adapter backends => Balancer.ofConfig_of_validate h hresolver adapter backends⟩, hfixed, hdns,
    fun r hr n => ?_, ⟨f, by rw [LogFormat.read, hf]⟩, ⟨l, hl, by rw [LogLevel.read, hl]; rfl⟩,
    fun s hs r hr hlist k n m hstarted hnm halone => ?_⟩
  · obtain ⟨hoptions, rfl⟩ := hr.eq h hresolver
    exact r.ticks (by rw [hoptions]; exact haccepted.interval) hpolls n
  · obtain ⟨hoptions, hkind⟩ := hr.eq h (hfixed s hs)
    have hring : r.listRing = Ring.build (s.hostnames.map Endpoint.mk) c.settings.virtualNodes := by
      rw [Run.listRing, hoptions, hkind]
      unfold Ring.build Ring.buildWith
      rw [Resolver.new, Endpoint.normalize_normalize]
    have hknown : r.resolver.known ≠ [] := by
      rw [hkind]
      exact mt (fun hnil => (Ring.endpoints_build_eq_nil_iff _ 0).1 hnil) (mt List.map_eq_nil_iff.1 (haccepted.hosts s hs))
    rw [← hring]
    exact hstarted.routes hnm halone (by rw [hkind]; rfl) hknown hlist

/-- A platform without network: a hostname is found only if it is an address, and there is no access to a cluster. -/
def Platform.isolated : Platform where
  lookup := fun hostname => [⟨0, false, match IpAddress.read hostname with
    | some address => .ok [address]
    | none => .error "no network"⟩]
  Kubeconfig := Empty
  ClientConfig := Empty
  readKubeconfig := fun _ => .error "no file"
  clientConfig := nofun
  client := nofun
  defaultClient := .error "no network"

/-- A configuration that looks up one host. -/
def RouterConfig.ofLookup (host : String) : RouterConfig :=
  { RouterConfig.default with discovery := ⟨none, some { DnsDiscovery.default with hostname := host }, none⟩, ring := ⟨1⟩ }

/-- A configuration with one host. -/
def RouterConfig.ofHost (host : String) : RouterConfig :=
  { RouterConfig.default with discovery := ⟨some ⟨[host]⟩, none, none⟩, ring := ⟨1⟩ }

/-- A run of a configuration with one host: the balancer is started, and a batch dispatched. -/
def Run.ofHost (host : String) : Run Unit where
  options := ⟨(RouterConfig.ofHost host).settings, none, some standardPort⟩
  adapter := ⟨.logs, fun _ _ => none⟩
  resolver := .new .fixed (Endpoint.normalize [⟨host⟩])
  backends := ⟨[]⟩
  action := fun n =>
    if n = 0 then .request .start
    else if n < 11 then .move 0 0
    else if n = 11 then .request (.dispatch oneItem ⟨none, none⟩)
    else .move 2 0

/-- A configuration with the host `a` is accepted, so it can be run: a balancer with it that was started has the endpoint on its ring, and
the dispatch that is asked for then does not fail for lack of endpoints. So can a configuration that looks up `10.0.0.1`: its resolver polls
a source that answers with this address. -/
theorem RouterConfig.runnable_ofHost : (ofHost "a").validate = .ok () ∧ (ofHost "a").Runnable Unit .isolated ∧
    (Run.ofHost "a").BuiltFrom .isolated (ofHost "a") ∧ (Run.ofHost "a").KeepsList ∧ (Run.ofHost "a").Started 0 11 ∧
    (Run.ofHost "a").LeftAlone 0 13 ∧ ((Run.ofHost "a").state 13).ring.endpoints = [⟨"a"⟩] ∧
    ((Run.ofHost "a").state 13).outcome? ((Run.ofHost "a").state 11).nextTask ≠
      some (.dispatched (.failed (.routing .noEndpoints))) ∧
    (ofLookup "10.0.0.1").validate = .ok () ∧ (ofLookup "10.0.0.1").Runnable Unit .isolated ∧
    Resolver.ofConfig .isolated (ofLookup "10.0.0.1").discovery =
      .ok (.polling ⟨"dns", none, false, .ofList [.immediate (.ok [⟨"10.0.0.1"⟩])]⟩ (.ofSeconds 5) (.ofSeconds 1)) := by
  have hvalidate : (ofHost "a").validate = .ok () := by rfl
  have hrunnable := runnable_of_validate (α := Unit) .isolated (ofHost "a") (.inl rfl) hvalidate
  have hlookup : (ofLookup "10.0.0.1").validate = .ok () := by rfl
  have hpolls := runnable_of_validate (α := Unit) .isolated (ofLookup "10.0.0.1") (.inr rfl) hlookup
  have hbuilt : (Run.ofHost "a").BuiltFrom .isolated (ofHost "a") :=
    Balancer.ofConfig_of_validate hvalidate (Resolver.ofConfig_of_fixed _ rfl rfl (List.cons_ne_nil _ _)) _ _
  have haction : ∀ n rq, (Run.ofHost "a").action n = .request rq → rq = .start ∨ ∃ batch context, rq = .dispatch batch context := by
    intro n rq h
    simp only [Run.ofHost] at h
    split at h
    · injection h with h
      exact .inl h.symm
    · split at h
      · cases h
      · split at h
        · injection h with h
          exact .inr ⟨_, _, h.symm⟩
        · cases h
  have hlist : (Run.ofHost "a").KeepsList := fun n es h => by
    rcases haction n _ h with h | ⟨_, _, h⟩ <;> cases h
  have hkept : ∀ i, (Run.ofHost "a").action i ≠ .abandon 0 := fun i h => by
    simp only [Run.ofHost] at h
    split at h
    · cases h
    · split at h
      · cases h
      · split at h <;> cases h
  have hstarted : (Run.ofHost "a").Started 0 11 :=
    ⟨rfl, by decide, fun i _ _ => hkept i, Balancer.outcome?_of_hasSucceeded (by decide +kernel)⟩
  have halone : (Run.ofHost "a").LeftAlone 0 13 := fun j _ hbrings => by
    unfold Action.bringsRing at hbrings
    split at hbrings
    · rename_i h
      rcases haction j _ h with h | ⟨_, _, h⟩ <;> cases h
    · rename_i h
      rcases haction j _ h with h | ⟨_, _, h⟩ <;> cases h
    · cases hbrings
  have hroutes := hrunnable.routes ⟨["a"]⟩ rfl _ hbuilt hlist 0 11 13 hstarted (by decide) halone
  exact ⟨hvalidate, hrunnable, hbuilt, hlist, hstarted, halone, by rw [hroutes.published]; decide +kernel,
    hroutes.not_unrouted (Nat.le_refl 11) (by decide) rfl, hlookup, hpolls, hpolls.dns _ rfl⟩

end TelemetryRouter
