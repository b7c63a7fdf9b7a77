import GameLink.PublicWeb.Validator

namespace GameLink.PublicWeb

open Foundation

variable {v v' : Validator} {o : Currency} {t : ℕ} {facts : Facts} {p : Validator.Proof}

/-! What a passed check says. -/

namespace Validator

theorem routes_of_requireRouteCurrent {host route : Answer} {endpoint : Key} {r : Route}
    (h : v.requireRouteCurrent host route endpoint r = .ok ()) :
    v.closed = false ∧ v.core.isSome ∧ host = .yes ∧ v.routes.lookup endpoint = some r ∧
      (r.guarded = false ∨ route = .yes) := by
  unfold requireRouteCurrent at h
  split at h
  · assumption
  · cases h

structure Passed (v : Validator) (o : Currency) (t : ℕ) (facts : Facts) : Prop where
  entered : (t, facts) ∈ v.requests
  opened : v.closed = false
  attached : v.core.isSome
  request : facts.guarded = true → o.request = .yes
  host : o.host = .yes ∧ o.hostAgain = .yes
  route : facts.route.guarded = false ∨ o.route = .yes
  published : v.routes.lookup facts.endpoint = some facts.route
  clock : o.clock < facts.deadline
  wall : o.wall < facts.expiry

theorem mem_of_lookup {l : List (ℕ × Facts)} (h : l.lookup t = some facts) : (t, facts) ∈ l := by
  induction l with
  | nil => cases h
  | cons e l ih =>
    rw [List.lookup_cons] at h
    split at h
    · rename_i he
      cases h
      rw [beq_iff_eq.mp he]
      exact List.mem_cons_self
    · exact List.mem_cons_of_mem _ (ih h)

theorem passed_of_require (h : v.require o p = .ok facts) : ∃ t, p = .ticket t ∧ v.Passed o t facts := by
  cases p with
  | foreign => cases h
  | ticket t =>
    simp only [require] at h
    split at h
    · cases h
    rename_i found hfound
    split at h
    · cases h
    rename_i hopen
    split at h
    · cases h
    rename_i hraised
    split at h
    · cases h
    rename_i hlimits
    split at h
    · cases h
    rename_i hroute
    obtain rfl := Except.ok.inj h
    obtain ⟨hclosed, hcore, hagain, hpublished, hguard⟩ := routes_of_requireRouteCurrent hroute
    simp only [not_or, not_and, not_not, not_le] at hopen hlimits
    refine ⟨t, rfl, mem_of_lookup hfound, hclosed, hcore, hopen.2.1, ⟨?_, hagain⟩, hguard, hpublished,
      hlimits.2.2.1, hlimits.2.2.2⟩
    cases hh : o.host with
    | yes => rfl
    | no => exact absurd hh hlimits.1
    | raised => exact absurd hh hraised

theorem mint_ok (h : (v.mint o p).1 = .ok ()) : ∃ t facts, p = .ticket t ∧ v.Passed o t facts ∧
    (v.mint o p).2 = v.update t fun f => { f with minted := true } := by
  unfold mint at h ⊢
  split at h
  · cases h
  · cases h
  rename_i facts t hrequire
  obtain ⟨t', ht', hp⟩ := passed_of_require hrequire
  obtain rfl := Proof.ticket.inj ht'
  split at h
  · cases h
  rename_i hm
  refine ⟨_, facts, rfl, hp, ?_⟩
  rw [if_neg hm]

variable {e : Fault}

theorem mint_error (h : (v.mint o p).1 = .error e) : (v.mint o p).2 = v := by
  unfold mint at h ⊢
  split at h
  · rfl
  · rfl
  split at h
  · rw [if_pos ‹_›]
  · cases h

variable {moduleId capabilityId : String} {binding : Binding} {generation : ℤ}

theorem consume_ok
    (h : (v.consume o p moduleId capabilityId generation).1 = .ok binding) : ∃ t facts, p = .ticket t ∧
      v.Passed o t facts ∧ facts.minted = true ∧ facts.binding = none ∧ facts.route.target = (moduleId, capabilityId) ∧
      (v.consume o p moduleId capabilityId generation).2 =
        { v.update t fun f => { f with binding := some binding } with objects := v.objects + 1 } := by
  unfold consume at h ⊢
  split at h
  · cases h
  · cases h
  rename_i facts t hrequire
  obtain ⟨t', ht', hp⟩ := passed_of_require hrequire
  obtain rfl := Proof.ticket.inj ht'
  split at h
  · cases h
  rename_i hm
  simp only [not_or, Bool.not_eq_false, Bool.not_eq_true, Option.isSome_eq_false_iff, Option.isNone_iff_eq_none,
    ne_eq, not_not] at hm
  split at h
  · cases h
  rename_i hvalid
  refine ⟨_, facts, rfl, hp, hm.1, hm.2.1, hm.2.2.symm, ?_⟩
  rw [if_neg (by simp [hm])]
  obtain rfl := Except.ok.inj h
  rfl

theorem consume_error
    (h : (v.consume o p moduleId capabilityId generation).1 = .error e) :
    (v.consume o p moduleId capabilityId generation).2 = v := by
  unfold consume at h ⊢
  split at h
  · rfl
  · rfl
  split at h
  · rw [if_pos ‹_›]
  rename_i hm
  rw [if_neg hm]
  split at h
  · rfl
  · cases h

theorem isCurrent_true (h : v.isCurrent o p binding = .ok true) :
    ∃ t facts, p = .ticket t ∧ v.Passed o t facts ∧ facts.minted = true ∧ facts.binding = some binding := by
  unfold isCurrent at h
  split at h
  · rename_i facts hrequire
    obtain ⟨t, rfl, hp⟩ := passed_of_require hrequire
    simp only [Except.ok.injEq, Bool.and_eq_true, decide_eq_true_eq] at h
    exact ⟨t, facts, rfl, hp, h.1, h.2⟩
  · cases h
  · cases h

theorem remaining_ok {clock wall seconds : ℚ} (h : v.remaining o clock wall p = .ok seconds) :
    ∃ t facts, p = .ticket t ∧ v.Passed o t facts := by
  unfold remaining at h
  split at h
  · rename_i facts hrequire
    obtain ⟨t, rfl, hp⟩ := passed_of_require hrequire
    exact ⟨t, facts, rfl, hp⟩
  · cases h

theorem routeFor_ok {endpoint : Key} {route : Route} (h : v.routeFor o p endpoint = .ok route) :
    ∃ t facts, p = .ticket t ∧ v.Passed o t facts ∧ facts.route = route := by
  unfold routeFor at h
  split at h
  · rename_i facts hrequire
    obtain ⟨t, rfl, hp⟩ := passed_of_require hrequire
    split at h
    · exact ⟨t, facts, rfl, hp, Except.ok.inj h⟩
    · cases h
  · cases h

theorem begin_cases (e : Entry) (o again : Currency) (hfresh : ∀ t f, (t, f) ∈ v.requests → t < v.objects) :
    (∃ fault, (v.begin e o again).1 = .error fault ∧ (v.begin e o again).2.requests = v.requests ∧
      v.objects ≤ (v.begin e o again).2.objects) ∨
    ∃ f : Facts, (v.begin e o again).1 = .ok v.objects ∧ f.minted = false ∧
      (v.begin e o again).2 = { v with requests := (v.objects, f) :: v.requests, objects := v.objects + 1 } := by
  have hgone : ∀ f : Facts, ((v.objects, f) :: v.requests).filter (fun e => decide (e.1 ≠ v.objects)) = v.requests := by
    intro f
    rw [List.filter_cons_of_neg (by simp), List.filter_eq_self]
    intro e he
    have := hfresh e.1 e.2 he
    exact decide_eq_true (by omega)
  unfold begin
  split
  · exact .inl ⟨_, rfl, rfl, le_rfl⟩
  split
  · exact .inl ⟨_, rfl, rfl, le_rfl⟩
  split
  · exact .inl ⟨_, rfl, rfl, le_rfl⟩
  · exact .inl ⟨_, rfl, rfl, le_rfl⟩
  rename_i key _ _
  dsimp only
  split
  · refine .inl ⟨_, rfl, ?_, Nat.le_succ _⟩
    exact hgone _
  · exact .inr ⟨_, rfl, rfl, rfl⟩

/-! What a replacement publishes. -/

theorem lookup_filter_ne {l : List (Key × Route)} {k k' : Key} (h : k' ≠ k) :
    (l.filter fun e => e.1 ≠ k).lookup k' = l.lookup k' := by
  induction l with
  | nil => rfl
  | cons e l ih =>
    by_cases he : e.1 = k
    · rw [List.filter_cons_of_neg (by simp [he]), ih, List.lookup_cons]
      have hne : (k' == e.1) = false := by simpa [he] using h
      rw [hne]
    · rw [List.filter_cons_of_pos (by simp [he]), List.lookup_cons, List.lookup_cons, ih]

theorem lookup_put_self (routes : List (Key × Route)) (k : Key) (r : Route) : (put routes k r).lookup k = some r := by
  simp [put]

theorem lookup_put_of_ne {routes : List (Key × Route)} {k k' : Key} {r : Route} (h : k' ≠ k) :
    (put routes k r).lookup k' = routes.lookup k' := by
  have hne : (k' == k) = false := by simpa using h
  rw [put, List.lookup_cons, hne]
  exact lookup_filter_ne h

theorem targetKey_injective {a b : Target} (h : targetKey a = targetKey b) : a = b := by
  simp only [targetKey, Key.tuple.injEq, List.cons.injEq, Option.some.injEq, and_true] at h
  exact Prod.ext h.1 h.2

variable {item : Replacement}

theorem external_ok {target : Target} {owner : ℕ} (h : v.external item = .ok (target, owner)) :
    ∃ declared, item.declared = some declared ∧ declared.target = targetKey target ∧ declared.owner = some owner := by
  unfold external at h
  split at h
  · cases h
  rename_i declared hd
  split at h
  · rename_i htarget howner
    split at h
    · rename_i hc
      cases h
      exact ⟨declared, hd, hc.1, howner⟩
    · cases h
  · cases h

variable {routes routes' : List (Key × Route)} {n n' : ℕ}

theorem build_cons {rest : List Replacement}
    (h : v.build routes n (item :: rest) = .ok (routes', n')) : ∃ target owner r m, n ≤ m ∧
      v.external item = .ok (target, owner) ∧ (∀ old, v.kept item.endpoint target owner = some old → r = old) ∧
      v.build (put routes item.endpoint r) m rest = .ok (routes', n') := by
  rw [build] at h
  split at h
  · cases h
  rename_i target owner hexternal
  split at h
  · rename_i old hold
    refine ⟨target, owner, old, n, le_rfl, hexternal, ?_, h⟩
    intro old' hold'
    rw [hold] at hold'
    exact Option.some.inj hold'
  rename_i hnone
  refine ⟨target, owner, _, n + 1, Nat.le_succ n, hexternal, ?_, h⟩
  intro old' hold'
  rw [hnone] at hold'
  cases hold'

variable {items : List Replacement}

theorem build_objects (h : v.build routes n items = .ok (routes', n')) : n ≤ n' := by
  induction items generalizing routes n with
  | nil =>
    cases h
    exact le_rfl
  | cons item rest ih =>
    obtain ⟨_, _, _, m, hm, -, -, h⟩ := build_cons h
    exact hm.trans (ih h)

theorem lookup_build_of_notMem {k : Key}
    (h : v.build routes n items = .ok (routes', n')) (hk : k ∉ items.map Replacement.endpoint) :
    routes'.lookup k = routes.lookup k := by
  induction items generalizing routes n with
  | nil =>
    cases h
    rfl
  | cons item rest ih =>
    rw [List.map_cons, List.mem_cons, not_or] at hk
    obtain ⟨_, _, _, _, -, -, -, h⟩ := build_cons h
    rw [ih h hk.2, lookup_put_of_ne hk.1]

theorem lookup_build_kept
    (h : v.build routes n items = .ok (routes', n')) (hitems : (items.map Replacement.endpoint).Nodup) (hitem : item ∈ items) {declared : Declared} (hd : item.declared = some declared) {old : Route}
    (hold : v.routes.lookup item.endpoint = some old) (howner : old.owner = declared.owner)
    (htarget : targetKey old.target = declared.target) : routes'.lookup item.endpoint = some old := by
  induction items generalizing routes n with
  | nil => cases hitem
  | cons head rest ih =>
    obtain ⟨target, owner, r, m, -, hexternal, hkept, h⟩ := build_cons h
    rw [List.map_cons, List.nodup_cons] at hitems
    rcases List.mem_cons.mp hitem with rfl | hitem
    · obtain ⟨declared', hd', htarget', howner'⟩ := external_ok hexternal
      obtain rfl := Option.some.inj (hd.symm.trans hd')
      have hr : r = old := by
        apply hkept
        rw [kept, hold]
        simp [howner.trans howner', targetKey_injective (htarget.trans htarget')]
      rw [lookup_build_of_notMem h hitems.1, lookup_put_self, hr]
    · exact ih h hitems.2 hitem

variable {timeouts : Timeouts}

theorem replace_error
    (h : (v.replaceExternalBindings items timeouts).1 = .error e) : (v.replaceExternalBindings items timeouts).2 = v := by
  unfold replaceExternalBindings at h ⊢
  split at h
  · rfl
  split at h
  · rfl
  split at h
  · rfl
  · cases h

theorem replace_ok
    (h : (v.replaceExternalBindings items timeouts).1 = .ok ()) : ∃ bundled routes objects merged,
      v.build bundled v.objects items = .ok (routes, objects) ∧
      (v.replaceExternalBindings items timeouts).2 = { v with
        bindings := routes.map fun e => (e.1, e.2.target)
        routes := routes
        capabilityTimeouts := merged
        objects := objects
        requests := v.requests.filter fun e => routes.lookup e.2.endpoint = some e.2.route } := by
  unfold replaceExternalBindings at h ⊢
  split at h
  · cases h
  rename_i bundled _
  split at h
  · cases h
  rename_i routes objects hbuild
  split at h
  · cases h
  · rename_i merged _
    exact ⟨bundled, routes, objects, merged, hbuild, rfl⟩

end Validator

end GameLink.PublicWeb
