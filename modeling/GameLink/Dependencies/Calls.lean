import GameLink.Dependencies.Handlers

namespace GameLink.Dependencies

open Foundation Contracts Context

variable {s s' : Issuer} {call : Context.Call} {v : InvocationView} {w : World} {i : ℕ} {p : Plan} {l : Launch}
  {e : Entry} {x : Selection} {outcome : Outcome}

structure Gone (s : Issuer) (v : InvocationView) : Prop where
  made : v.object < s.allocated
  released : ¬ s.Holds v

theorem allocated_of_moved (h : Moved s call s') : s.allocated ≤ s'.allocated := by
  cases h with
  | sidecar hside _ _ => exact hside.allocated.ge
  | entered hentered _ _ _ =>
    rw [hentered.allocated]
    exact Nat.le_succ _
  | released _ _ _ _ => exact le_rfl

theorem not_handsOut_of_made (h : Moved s call s') (hv : v.object < s.allocated) : ¬ call.HandsOut s v := by
  intro hout
  cases h with
  | sidecar _ _ hquiet => exact hquiet.issues v hout
  | entered hentered _ hissues _ =>
    have hobject := hentered.object
    rw [hissues] at hout
    rw [hout] at hv
    omega
  | released _ hc _ _ =>
    subst hc
    obtain ⟨_, hout⟩ := hout
    cases hout

theorem Gone.moved (h : Moved s call s') (hv : Gone s v) : Gone s' v := by
  constructor
  · exact hv.made.trans_le (allocated_of_moved h)
  intro hheld
  cases h.holds.mp hheld with
  | inl hout => exact not_handsOut_of_made h hv.made hout
  | inr hold => exact hv.released hold.1

theorem moved_of_release (hs : s.Sound) : Moved s (.release v) ((Context.Call.release v).run s) :=
  Call.moved hs (by rintro id ⟨⟩)

theorem gone_of_release (hs : s.Sound) (hv : v.object < s.allocated) : Gone ((Context.Call.release v).run s) v := by
  have hmoved := moved_of_release (v := v) hs
  constructor
  · exact hv.trans_le (allocated_of_moved hmoved)
  intro hheld
  cases hmoved.holds.mp hheld with
  | inl hout => exact not_handsOut_of_made hmoved hv hout
  | inr hold => exact hold.2 v rfl .refl

def Flow.plan : Flow → Option Plan
  | capturing p => some p
  | authorizing p => some p
  | flow => flow.reserved

structure Plan.Sound (s : Issuer) (p : Plan) : Prop where
  made : p.child.object < s.allocated
  nodup : p.chain.Nodup
  short : p.chain.length ≤ p.invoker.maxDepth + 1

def Flow.Sound (s : Issuer) : Flow → Prop
  | ended child outcome => outcome.settled = true ∧ ∀ v, child = some v → Gone s v
  | flow => ∀ p, flow.plan = some p → p.Sound s

theorem Plan.Sound.moved (h : Moved s call s') (hp : p.Sound s) : p.Sound s' :=
  ⟨hp.made.trans_le (allocated_of_moved h), hp.nodup, hp.short⟩

variable {flow : Flow}

theorem Flow.Sound.moved (h : Moved s call s') (hflow : flow.Sound s) : flow.Sound s' := by
  cases flow with
  | ended child outcome => exact ⟨hflow.1, fun v hv => (hflow.2 v hv).moved h⟩
  | idle => exact fun p hp => (hflow p hp).moved h
  | capturing q => exact fun p hp => (hflow p hp).moved h
  | authorizing q => exact fun p hp => (hflow p hp).moved h
  | running q grant => exact fun p hp => (hflow p hp).moved h
  | reauthorizing q grant result => exact fun p hp => (hflow p hp).moved h
  | recapturing q result => exact fun p hp => (hflow p hp).moved h
  | cancelling q => exact fun p hp => (hflow p hp).moved h
  | expiring q => exact fun p hp => (hflow p hp).moved h

theorem Flow.Sound.reserved (hflow : flow.Sound s) (hp : flow.reserved = some p) : p.Sound s := by
  cases flow with
  | ended child outcome => cases hp
  | idle => cases hp
  | capturing q => cases hp
  | authorizing q => cases hp
  | running q grant => exact hflow p hp
  | reauthorizing q grant result => exact hflow p hp
  | recapturing q result => exact hflow p hp
  | cancelling q => exact hflow p hp
  | expiring q => exact hflow p hp

def World.Owned (w : World) (k : String) (chain : Chain) : Prop :=
  ∃ i p, (w.flows i).reserved = some p ∧ p.child.invocationId = k ∧ chain = p.chain

structure World.Sound (w : World) : Prop where
  issuer : w.issuer.Sound
  flows : ∀ i, (w.flows i).Sound w.issuer
  chains : ∀ k chain, w.chains k = some chain → w.Owned k chain

namespace World

theorem flows_put (w : World) (i j : ℕ) (flow : Flow) : (w.put i flow).flows j = if j = i then flow else w.flows j := by
  change Function.update w.flows i flow j = _
  rw [Function.update_apply]

theorem Sound.moved (hw : w.Sound) (h : Moved w.issuer call s') : { w with issuer := s' }.Sound where
  issuer := h.sound hw.issuer
  flows j := (hw.flows j).moved h
  chains := hw.chains

theorem Sound.releaseChild (hw : w.Sound) (v : InvocationView) : (w.releaseChild v).Sound :=
  hw.moved (moved_of_release hw.issuer)

theorem Sound.put {flow : Flow} (hw : w.Sound) (hflow : flow.Sound w.issuer)
    (hkeeps : ∀ p, (w.flows i).reserved = some p → flow.reserved = some p) : (w.put i flow).Sound where
  issuer := hw.issuer
  flows j := by
    rw [flows_put]
    split
    · exact hflow
    · exact hw.flows j
  chains k chain hk := by
    obtain ⟨j, p, hp, hid, hchain⟩ := hw.chains k chain hk
    refine ⟨j, p, ?_, hid, hchain⟩
    rw [flows_put]
    split
    · rename_i hj
      rw [hj] at hp
      exact hkeeps p hp
    · exact hp

theorem Sound.abandon (hw : w.Sound) (hfree : (w.flows i).reserved = none) (hv : v.object < w.issuer.allocated)
    (hsettled : outcome.settled = true) : (w.abandon i v outcome).Sound := by
  apply (hw.releaseChild v).put
  · refine ⟨hsettled, ?_⟩
    rintro _ ⟨⟩
    exact gone_of_release hw.issuer hv
  intro p hp
  rw [show (w.releaseChild v).flows i = w.flows i from rfl, hfree] at hp
  cases hp

structure Clears (w : World) (i : ℕ) (p : Plan) : Prop where
  issuer : w.issuer.Sound
  flows : ∀ j, (w.flows j).Sound w.issuer
  chains : ∀ k chain, k ≠ p.child.invocationId → w.chains k = some chain → w.Owned k chain
  plan : ∀ q, (w.flows i).reserved = some q → q = p

theorem Sound.clears (hw : w.Sound) (hplan : (w.flows i).reserved = some p) : w.Clears i p where
  issuer := hw.issuer
  flows := hw.flows
  chains k chain _ hk := hw.chains k chain hk
  plan q hq := by
    rw [hplan] at hq
    exact (Option.some.inj hq).symm

theorem Sound.clears_reserve (hw : w.Sound) (hfree : (w.flows i).reserved = none) : (w.reserve p).Clears i p where
  issuer := hw.issuer
  flows := hw.flows
  chains k chain hne hk := by
    change Function.update w.chains p.child.invocationId (some p.chain) k = some chain at hk
    rw [Function.update_of_ne hne] at hk
    exact hw.chains k chain hk
  plan q hq := by
    rw [show (w.reserve p).flows i = w.flows i from rfl, hfree] at hq
    cases hq

theorem Clears.finish (hw : w.Clears i p) (hp : p.child.object < w.issuer.allocated) (hsettled : outcome.settled = true) :
    (w.finish i p outcome).Sound where
  issuer := (moved_of_release hw.issuer).sound hw.issuer
  flows j := by
    rw [World.finish, flows_put]
    split
    · refine ⟨hsettled, ?_⟩
      rintro _ ⟨⟩
      exact gone_of_release hw.issuer hp
    · exact (hw.flows j).moved (moved_of_release hw.issuer)
  chains k chain hk := by
    change Function.update w.chains p.child.invocationId none k = some chain at hk
    by_cases hid : k = p.child.invocationId
    · rw [hid, Function.update_self] at hk
      cases hk
    rw [Function.update_of_ne hid] at hk
    obtain ⟨j, q, hq, hqid, hchain⟩ := hw.chains k chain hid hk
    refine ⟨j, q, ?_, hqid, hchain⟩
    rw [World.finish, flows_put, if_neg]
    · exact hq
    rintro rfl
    rw [hw.plan q hq] at hqid
    exact hid hqid.symm

theorem Clears.keep {flow : Flow} (hw : (w.reserve p).Clears i p) (hflow : flow.Sound w.issuer)
    (hreserved : flow.reserved = some p) : ((w.reserve p).put i flow).Sound where
  issuer := hw.issuer
  flows j := by
    rw [flows_put]
    split
    · exact hflow
    · exact hw.flows j
  chains k chain hk := by
    by_cases hid : k = p.child.invocationId
    · change Function.update w.chains p.child.invocationId (some p.chain) k = some chain at hk
      rw [hid, Function.update_self] at hk
      refine ⟨i, p, ?_, hid.symm, (Option.some.inj hk).symm⟩
      rw [flows_put, if_pos rfl]
      exact hreserved
    obtain ⟨j, q, hq, hqid, hchain⟩ := hw.chains k chain hid hk
    refine ⟨j, q, ?_, hqid, hchain⟩
    rw [flows_put, if_neg]
    · exact hq
    rintro rfl
    rw [hw.plan q hq] at hqid
    exact hid hqid.symm

variable {grant : Option Authorization.Grant}

theorem Sound.launch (hw : w.Sound) (hfree : (w.flows i).reserved = none)
    (hp : p.Sound w.issuer) (hl : l.foreseen = true) : (w.launch i p grant l).Sound := by
  have hclears := hw.clears_reserve (p := p) hfree
  unfold World.launch
  split
  · exact hclears.finish hp.made rfl
  cases hspawn : l.spawn with
  | some r =>
    rw [Launch.foreseen, named, hspawn] at hl
    exact hclears.finish hp.made (settled_raise hl)
  | none =>
    dsimp only
    split
    · refine hclears.keep ?_ rfl
      rintro q ⟨⟩
      exact hp
    refine hclears.keep ?_ rfl
    rintro q ⟨⟩
    exact hp

theorem Sound.begin (hw : w.Sound) (hfree : (w.flows i).reserved = none) (hp : p.Sound w.issuer)
    (hl : l.foreseen = true) : (w.begin i p l).Sound := by
  have hwaits : ∀ flow : Flow, flow.Sound w.issuer → (w.put i flow).Sound := by
    intro flow hflow
    apply hw.put hflow
    intro q hq
    rw [hfree] at hq
    cases hq
  unfold World.begin
  split
  · split
    · apply hwaits
      rintro q ⟨⟩
      exact hp
    · exact hw.abandon hfree hp.made rfl
  · split
    · apply hwaits
      rintro q ⟨⟩
      exact hp
    · exact hw.abandon hfree hp.made rfl
  · exact hw.launch hfree hp hl

theorem Sound.stopped {stop : Stop} (hw : w.Sound) (hfree : (w.flows i).reserved = none)
    (hv : v.object < w.issuer.allocated) (hstop : (stop.outcome entryHandler).settled = true) :
    (w.stopped i v stop).Sound := by
  unfold World.stopped
  cases hout : stop.outcome entryHandler with
  | raised r =>
    rw [hout] at hstop
    cases hstop
  | result r => exact hw.abandon hfree hv rfl
  | error code => exact hw.abandon hfree hv rfl
  | cancelled => exact hw.abandon hfree hv rfl

theorem answerWhen_eq_ok {c : Prop} [Decidable c] {code : ErrorCode} {u : Unit} :
    answerWhen c code = .ok u ↔ ¬ c := by
  unfold answerWhen
  split
  · rename_i hc
    simp [hc]
  · rename_i hc
    simp [hc]

theorem select_chain {chains : String → Option Chain} (h : select s chains e = .ok x) :
    (∃ key, x.chain = (chains x.parent.invocationId).getD [key]) ∧ x.chain.length ≤ e.invoker.maxDepth ∧
      x.key ∉ x.chain := by
  simp only [select, bind_eq_ok, answerWhen_eq_ok] at h
  obtain ⟨parent, -, lease, -, -, -, -, -, caller, -, -, -, target, -, -, hlength, -, hkey, deadline, -, hx⟩ := h
  cases hx
  exact ⟨⟨_, rfl⟩, Nat.lt_succ_iff.mp (not_le.mp hlength), hkey⟩

theorem Sound.nodup (hw : w.Sound) {k : String} {chain : Chain} (hk : w.chains k = some chain) : chain.Nodup := by
  obtain ⟨j, q, hq, -, rfl⟩ := hw.chains k chain hk
  exact ((hw.flows j).reserved hq).nodup

theorem Sound.plan (hw : w.Sound) (hselect : select w.issuer w.chains e = .ok x) (hv : v.object < s.allocated) :
    (⟨e.invoker, x, v⟩ : Plan).Sound s := by
  obtain ⟨⟨key, hchain⟩, hlength, hkey⟩ := select_chain hselect
  have hnodup : x.chain.Nodup := by
    cases hparent : w.chains x.parent.invocationId with
    | none =>
      rw [hchain, hparent]
      exact List.nodup_singleton key
    | some chain =>
      rw [hchain, hparent]
      exact hw.nodup hparent
  constructor
  · exact hv
  · rw [Plan.chain, ← List.concat_eq_append]
    exact hnodup.concat hkey
  · rw [Plan.chain, List.length_append, List.length_singleton]
    exact Nat.succ_le_succ hlength

theorem moved_of_derive {r : Issuer.DeriveRequest} {a : Answers} {id : String} {parent : InvocationView}
    (hs : s.Sound) (hfresh : s.issued.get id = none) (h : s.derive a id parent r = .ok (v, s')) :
    Moved s (.derive a id parent r) s' := by
  have hmoved := Call.moved (c := .derive a id parent r) hs (by rintro _ ⟨⟩; exact hfresh)
  rw [Context.Call.run, h] at hmoved
  exact hmoved

theorem moved_of_admitChild (hs : s.Sound) :
    (admitChild s e x v).2 = s ∨ ∃ call, Moved s call (admitChild s e x v).2 := by
  unfold admitChild
  cases e.admission with
  | error r => exact .inl rfl
  | ok lease =>
    dsimp only
    cases hattach : s.attachLease e.answers v (some lease) with
    | error refusal => exact .inl rfl
    | ok s' =>
      have hmoved := Call.moved (c := .attachLease e.answers v (some lease)) hs (by rintro _ ⟨⟩)
      rw [Context.Call.run, hattach] at hmoved
      exact .inr ⟨_, hmoved⟩

theorem Sound.enterChild (hw : w.Sound) (hfree : (w.flows i).reserved = none) (he : e.foreseen = true)
    (hs : { w with issuer := s }.Sound) (hv : v.object < s.allocated)
    (hselect : select w.issuer w.chains e = .ok x) : (w.enterChild i e x v s).Sound := by
  have hadmitted : { w with issuer := (admitChild s e x v).2 }.Sound ∧ v.object < (admitChild s e x v).2.allocated := by
    cases moved_of_admitChild (e := e) (x := x) (v := v) hs.issuer with
    | inl hsame =>
      rw [hsame]
      exact ⟨hs, hv⟩
    | inr hmoved =>
      obtain ⟨call, hmoved⟩ := hmoved
      exact ⟨hs.moved hmoved, hv.trans_le (allocated_of_moved hmoved)⟩
  obtain ⟨hsound, hmade⟩ := hadmitted
  unfold World.enterChild
  cases hstop : (admitChild s e x v).1 with
  | error stop => exact hsound.stopped hfree hmade (handled_admitChild hs.issuer he stop hstop)
  | ok _ =>
    apply hsound.begin hfree (hw.plan hselect hmade)
    simp only [Entry.foreseen, Bool.and_eq_true] at he
    exact he.2

theorem Sound.enter (hw : w.Sound) (hidle : w.flows i = .idle) (he : e.foreseen = true)
    (hfresh : w.issuer.issued.get e.childId = none) : (w.enter i e).Sound := by
  have hfree : (w.flows i).reserved = none := by rw [hidle]; rfl
  have hends : ∀ outcome : Outcome, outcome.settled = true → (w.put i (.ended none outcome)).Sound := by
    intro outcome hsettled
    apply hw.put
    · refine ⟨hsettled, ?_⟩
      rintro _ ⟨⟩
    intro q hq
    rw [hfree] at hq
    cases hq
  have harguments : e.arguments = none := by
    simp only [Entry.foreseen, Bool.and_eq_true, Option.isNone_iff_eq_none] at he
    obtain ⟨⟨⟨⟨⟨⟨⟨hnone, -⟩, -⟩, -⟩, -⟩, -⟩, -⟩, -⟩ := he
    exact hnone
  unfold World.enter
  rw [harguments]
  dsimp only
  cases hselect : select w.issuer w.chains e with
  | error stop => exact hends _ (handled_select hw.issuer he stop hselect)
  | ok x =>
    dsimp only
    cases hderive : w.issuer.derive e.answers e.childId x.parent x.request with
    | error refusal =>
      apply hends
      rw [invalid_derive hw.issuer refusal hderive]
      rfl
    | ok r =>
      obtain ⟨child, s⟩ := r
      have hmoved := moved_of_derive hw.issuer hfresh hderive
      have hentered := Issuer.entered_derive hderive
      have hmade : child.object < s.allocated := by
        rw [hentered.object, hentered.allocated]
        exact Nat.lt_succ_self _
      exact hw.enterChild hfree he (hw.moved hmoved) hmade hselect

theorem Sound.captured {y : Awaited} (hw : w.Sound) (hflow : w.flows i = .capturing p) (hl : l.foreseen = true) :
    (w.captured i p l y).Sound := by
  have hfree : (w.flows i).reserved = none := by rw [hflow]; rfl
  have hp : p.Sound w.issuer := by
    have hsound := hw.flows i
    rw [hflow] at hsound
    exact hsound p rfl
  cases y with
  | done => exact hw.launch hfree hp hl
  | raised r => exact hw.abandon hfree hp.made rfl
  | cancelled => exact hw.abandon hfree hp.made rfl

theorem Sound.authorized {now : Instant} {childCheck : Option Raised} {y : Awaited}
    (hw : w.Sound) (hflow : w.flows i = .authorizing p) (hl : l.foreseen = true) :
    (w.authorized i p grant now childCheck l y).Sound := by
  have hfree : (w.flows i).reserved = none := by rw [hflow]; rfl
  have hp : p.Sound w.issuer := by
    have hsound := hw.flows i
    rw [hflow] at hsound
    exact hsound p rfl
  cases y with
  | done =>
    unfold World.authorized
    dsimp only
    split
    · exact hw.launch hfree hp hl
    · exact hw.abandon hfree hp.made rfl
  | raised r => exact hw.abandon hfree hp.made rfl
  | cancelled => exact hw.abandon hfree hp.made rfl

section

variable {close : Option Raised} {d : Delivered} {result : ℕ} {grant : Option Authorization.Grant}

theorem Sound.finishTask (hw : w.Sound) (hplan : (w.flows i).reserved = some p) (hclose : close = none)
    (hsettled : outcome.settled = true) : (w.finishTask i p outcome close).Sound := by
  rw [hclose]
  exact (hw.clears hplan).finish ((hw.flows i).reserved hplan).made hsettled

theorem Sound.await {flow : Flow} (hw : w.Sound) (hplan : (w.flows i).reserved = some p)
    (hflow : flow.plan = some p) (hreserved : flow.reserved = some p) : (w.put i flow).Sound := by
  have hp := (hw.flows i).reserved hplan
  apply hw.put
  · have hplans : ∀ q, flow.plan = some q → q.Sound w.issuer := by
      intro q hq
      rw [hflow] at hq
      rwa [← Option.some.inj hq]
    cases flow with
    | ended child outcome => cases hreserved
    | idle => exact hplans
    | capturing q => exact hplans
    | authorizing q => exact hplans
    | running q grant => exact hplans
    | reauthorizing q grant result => exact hplans
    | recapturing q result => exact hplans
    | cancelling q => exact hplans
    | expiring q => exact hplans
  · intro q hq
    rw [hplan] at hq
    rwa [← Option.some.inj hq]

theorem Sound.deliver (hw : w.Sound) (hplan : (w.flows i).reserved = some p) (hclose : close = none) :
    (w.deliver i p result d close).Sound := by
  apply hw.finishTask hplan hclose
  cases d.valid with
  | none => rfl
  | some r => rfl

theorem Sound.afterPrivate (hw : w.Sound) (hplan : (w.flows i).reserved = some p) (hclose : close = none) :
    (w.afterPrivate i p result d close).Sound := by
  unfold World.afterPrivate
  split
  · exact hw.finishTask hplan hclose rfl
  split
  · exact hw.await hplan rfl rfl
  · exact hw.deliver hplan hclose

theorem Sound.settle {t : TaskEnd} {q : Check} (hw : w.Sound) (hplan : (w.flows i).reserved = some p)
    (hq : q.foreseen = true) (hclose : close = none) : (w.settle i p grant q d close t).Sound := by
  cases t with
  | cancelled done =>
    unfold World.settle
    dsimp only
    split
    · exact hw.finishTask hplan hclose rfl
    · exact hw.await hplan rfl rfl
  | raised r =>
    apply hw.finishTask hplan hclose
    apply settled_raise
    unfold awaitHandler
    split
    · rfl
    · rfl
  | result n =>
    unfold World.settle
    dsimp only
    split
    · exact hw.finishTask hplan hclose rfl
    cases hcheck : check w.issuer p q with
    | error stop => exact hw.finishTask hplan hclose (handled_check hw.issuer hq stop hcheck)
    | ok _ =>
      dsimp only
      unfold World.afterChecks
      split
      · split
        · exact hw.await hplan rfl rfl
        · exact hw.finishTask hplan hclose rfl
      · exact hw.afterPrivate hplan hclose

theorem Sound.reauthorized {q : Recheck} (hw : w.Sound) (hplan : (w.flows i).reserved = some p)
    (hclose : close = none) : (w.reauthorized i p grant result q d close).Sound := by
  unfold World.reauthorized
  cases q.authorized with
  | cancelled => exact hw.finishTask hplan hclose rfl
  | raised r => exact hw.finishTask hplan hclose rfl
  | done =>
    dsimp only
    split
    · exact hw.afterPrivate hplan hclose
    · exact hw.finishTask hplan hclose rfl

theorem Sound.recaptured {y : Awaited} (hw : w.Sound) (hplan : (w.flows i).reserved = some p)
    (hclose : close = none) : (w.recaptured i p result d close y).Sound := by
  cases y with
  | cancelled => exact hw.finishTask hplan hclose rfl
  | raised r => exact hw.finishTask hplan hclose rfl
  | done => exact hw.deliver hplan hclose

end

theorem Sound.invoke {step : Step} (hw : w.Sound) (hstep : step.foreseen = true)
    (hfresh : w.fresh (.invoke i step)) : (w.invoke i step).Sound := by
  unfold World.invoke
  split
  · rename_i e hflow
    exact hw.enter hflow hstep hfresh
  · rename_i p y l hflow
    exact hw.captured hflow hstep
  · rename_i p y grant now childCheck l hflow
    exact hw.authorized hflow hstep
  · rename_i p grant t q d close hflow
    simp only [Step.foreseen, Bool.and_eq_true, Option.isNone_iff_eq_none] at hstep
    exact hw.settle (by rw [hflow]; rfl) hstep.1 hstep.2
  · rename_i p grant result q d close hflow
    exact hw.reauthorized (by rw [hflow]; rfl) (Option.isNone_iff_eq_none.mp hstep)
  · rename_i p result y d close hflow
    exact hw.recaptured (by rw [hflow]; rfl) (Option.isNone_iff_eq_none.mp hstep)
  · rename_i p close again hflow
    simp only [Step.foreseen, Bool.and_eq_true, Option.isNone_iff_eq_none] at hstep
    exact hw.finishTask (by rw [hflow]; rfl) hstep.1 rfl
  · rename_i p close again hflow
    simp only [Step.foreseen, Bool.and_eq_true, Option.isNone_iff_eq_none] at hstep
    rw [hstep.1]
    exact hw.finishTask (by rw [hflow]; rfl) hstep.2 rfl
  · exact hw

theorem Sound.next {a : Action} (hw : w.Sound) (hfresh : w.fresh a)
    (ha : ∀ i step, a = .invoke i step → step.foreseen = true) : (w.next a).Sound := by
  cases a with
  | issuer call => exact hw.moved (Call.moved hw.issuer hfresh)
  | invoke i step => exact hw.invoke (ha i step rfl) hfresh

end World

/-- Every call that has ended settled with a result or a cancellation and has released its child, and every active
chain is that of a call under way, repeats no pair, and is no deeper than the call's invoker allows. -/
def World.Settles (w : World) : Prop :=
  (∀ i child outcome, w.flows i = .ended child outcome →
    outcome.settled = true ∧ ∀ v, child = some v → ¬ w.issuer.Holds v) ∧
  ∀ k chain, w.chains k = some chain → chain.Nodup ∧ ∃ i p, (w.flows i).reserved = some p ∧
    p.child.invocationId = k ∧ chain = p.chain ∧ chain.length ≤ p.invoker.maxDepth + 1

def Flow.ending : Flow → Option (Option InvocationView × Outcome)
  | ended child outcome => some (child, outcome)
  | _ => none

namespace Sample

open Context.Sample

def caller : CapabilityDescriptor := ⟨"read", [.reference ⟨"p/n", "list"⟩], .public, .readOnly, []⟩

def target : CapabilityDescriptor := ⟨"list", [], .public, .readOnly, []⟩

def snapshot : RegistrySnapshot := ⟨[⟨"p/m", true, 1, [caller], ["read"]⟩, ⟨"p/n", true, 1, [target], ["list"]⟩]⟩

def entry (admission : Except Raised ℕ) : Entry where
  invoker := ⟨8, true, true⟩
  invocation := root
  capability := .reference ⟨"p/n", "list"⟩
  arguments := none
  answers := answers
  parentCheck := none
  caller := some ⟨"p/m", "read", 1, 1⟩
  snapshot := snapshot
  parentGuard := none
  reference := none
  clock := 10
  childId := "child"
  admission := admission
  targetGuard := none
  parameters := none
  launch := ⟨10, none, 10⟩

def check : Check := ⟨answers, 20, snapshot, none, none, none⟩

def idle : World := ⟨start, fun _ => none, fun _ => .idle⟩

def actions (admission : Except Raised ℕ) : List Action :=
  [.issuer (.issue answers "root" request), .issuer (.attachLease answers root (some 0)),
    .invoke 0 (.enter (entry admission))]

def answered : Action := .invoke 0 (.settle (.result 7) check ⟨true, none⟩ none)

def called : InvocationView := (⟨"p/n", 1, some 100, some "list"⟩ : Issuer.DeriveRequest).view root 1 "child"

def refused : {w : World // (w.flows 0).ending = some (some called, .raised .admission)} :=
  ⟨(actions (.error .admission)).foldl World.next idle, by decide +kernel⟩

end Sample

open Sample

end GameLink.Dependencies
