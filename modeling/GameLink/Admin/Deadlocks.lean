import GameLink.Admin.Locks

namespace GameLink.Admin

open Foundation

/-- How the calls of the event loop are written. Only a source's lock is taken under another, the service
lock, and a block that does so looks the source up first; what changes the registered sources, or goes on
with other code, has no such lock ahead. -/
def LoopOk (held : List Lock) (i : Instr Lock Effect) (rest : Code) : Prop :=
  match i with
  | .acquire l =>
    (held = [] ∨ held = [.service] ∧ ∃ s, l = .source s) ∧
    ∀ s, Thread.crossing .service (.source s) (l :: held) rest = true → held = [] →
      rest.head? = some (.effect (.found s))
  | .release => True
  | .effect (.create _) => ∀ s, Thread.crossing .service (.source s) held rest = false
  | .effect (.forget _) => ∀ s, Thread.crossing .service (.source s) held rest = false
  | .effect .closeSources => held = [] ∧ rest = []
  | .effect (.lookup _) => held = [] ∧ rest = []
  | .effect (.validator _) => held = [] ∧ rest = []
  | .effect _ => True

abbrev LoopCode (held : List Lock) (code : Code) : Prop := Thread.Along LoopOk held code

section

attribute [local simp] LoopCode Thread.Along LoopOk Thread.crossing Operation.code Code.owned Code.lifetime
  Code.sourceCheck Code.sourceClose Code.resume Code.mint

theorem Operation.loopCode (o : Operation) : LoopCode [] o.code := by
  cases o with
  | validateGeneration g =>
    obtain ⟨object, source⟩ := g
    cases source <;> simp
  | _ => simp

theorem loopCode_resume (task : Task) : LoopCode [] (Code.resume task) := by cases task <;> simp

variable (g : Grant)

theorem loopCode_lifetime : LoopCode [] (Code.lifetime g) := by simp

theorem loopCode_sourceCheck_mint (s : Source) : LoopCode [] (Code.sourceCheck s ++ Code.mint (some s)) := by simp

end

variable (g : Grant)

theorem loopCode_close (sources : List Source) : LoopCode [] (sources.flatMap Code.sourceClose) := by
  induction sources with
  | nil => trivial
  | cons s sources ih =>
    rw [List.flatMap_cons]
    refine ⟨⟨.inl rfl, ?_⟩, trivial, trivial, ih⟩
    intro s' h
    simp [Thread.crossing] at h

theorem Operation.settles (o : Operation) : Thread.after [] o.code = [] := by
  cases o with
  | validateGeneration g =>
    obtain ⟨object, source⟩ := g
    cases source <;> rfl
  | _ => rfl

theorem settles_resume (task : Task) : Thread.after [] (Code.resume task) = [] := by
  cases task <;> rfl

theorem settles_close (held : List Lock) (sources : List Source) :
    Thread.after held (sources.flatMap Code.sourceClose) = held := by
  induction sources with
  | nil => rfl
  | cons s sources ih =>
    rw [List.flatMap_cons, Thread.after_append]
    exact ih

def Plain : Instr Lock Effect → Prop
  | .effect .closeSources => False
  | .effect (.lookup _) => False
  | .effect (.validator _) => False
  | .effect (.forget _) => False
  | .effect (.create _) => False
  | .effect .close => False
  | _ => True

theorem plain_check : ∀ i ∈ Code.check g, Plain i := by
  unfold Code.check
  split <;> simp [Code.lifetime, Code.owned, Code.sourceCheck, Plain]

theorem plain_fence : ∀ i ∈ Code.fence g, Plain i := by
  unfold Code.fence
  intro i hi
  rcases List.mem_append.mp hi with hi | hi
  · split at hi
    · simp only [List.mem_cons, List.not_mem_nil, or_false] at hi
      rcases hi with rfl | rfl <;> trivial
    · rw [List.mem_singleton.mp hi]
      trivial
  · exact plain_check g i hi

theorem plain_assertCurrent : ∀ i ∈ Code.assertCurrent g, Plain i := by
  unfold Code.assertCurrent
  intro i hi
  rw [List.cons_append, List.mem_cons, List.mem_append, List.mem_singleton] at hi
  rcases hi with rfl | hi | rfl
  · trivial
  · exact plain_check g i hi
  · trivial

variable (guards : List Grant)

theorem plain_commit : ∀ i ∈ Code.commit guards, Plain i := by
  unfold Code.commit
  intro i hi
  rw [List.mem_append, List.mem_cons] at hi
  rcases hi with hi | rfl | hi
  · obtain ⟨g, -, hi⟩ := List.mem_flatMap.mp hi
    exact plain_fence g i hi
  · trivial
  · rw [List.eq_of_mem_replicate hi]
    trivial

theorem settles_check (held : List Lock) (g : Grant) : Thread.after held (Code.check g) = held := by
  unfold Code.check
  split <;> rfl

theorem settles_assertCurrent : Thread.after [] (Code.assertCurrent g) = [] := by
  unfold Code.assertCurrent
  rw [Thread.after_append]
  change Thread.after (Thread.after [] (Code.check g)) [.effect (.addGuard g)] = []
  rw [settles_check]
  rfl

theorem fence_keeps_one (held : List Lock) (g : Grant) : ∃ l, Thread.after held (Code.fence g) = l :: held := by
  unfold Code.fence
  rw [Thread.after_append, settles_check]
  split
  · exact ⟨_, rfl⟩
  · exact ⟨_, rfl⟩

theorem after_releases (n : ℕ) (held : List Lock) :
    Thread.after held (List.replicate n .release : Code) = held.drop n := by
  induction n generalizing held with
  | zero => rfl
  | succ n ih =>
    change Thread.after held.tail (List.replicate n .release : Code) = held.drop (n + 1)
    rw [ih, List.drop_tail]

theorem after_fences (held : List Lock) :
    ∃ taken, Thread.after held (guards.flatMap Code.fence) = taken ++ held ∧ taken.length = guards.length := by
  induction guards generalizing held with
  | nil => exact ⟨[], rfl, rfl⟩
  | cons g guards ih =>
    obtain ⟨l, hl⟩ := fence_keeps_one held g
    obtain ⟨taken, ht, hn⟩ := ih (l :: held)
    refine ⟨taken ++ [l], ?_, ?_⟩
    · rw [List.flatMap_cons, Thread.after_append, hl, ht, List.append_assoc]
      rfl
    · rw [List.length_append, hn]
      rfl

theorem settles_commit : Thread.after [] (Code.commit guards) = [] := by
  obtain ⟨taken, ht, hn⟩ := after_fences guards []
  unfold Code.commit
  rw [Thread.after_append, ht, List.append_nil]
  change Thread.after taken (List.replicate guards.length .release : Code) = []
  rw [after_releases, ← hn, List.drop_length]

namespace Authority

variable {x : Answer} {d : Authority} {e : Effect} {more : Code}

theorem more_of_perform (h : (d.perform x e).2 = some more) :
    more = [] ∨ e = .closeSources ∧ more = d.snapshot.flatMap Code.sourceClose ∨
      (∃ id s, e = .lookup id ∧ more = Code.sourceCheck s ++ Code.mint (some s)) ∨
      ∃ g, e = .validator g ∧ more = Code.lifetime g := by
  cases e with
  | closeSources => exact .inr (.inl ⟨rfl, (Option.some.inj h).symm⟩)
  | lookup id =>
    unfold perform at h
    dsimp only at h
    split at h
    · exact absurd h (Option.some_ne_none more).symm
    split at h
    · rename_i s hs
      exact .inr (.inr (.inl ⟨id, s, rfl, (Option.some.inj h).symm⟩))
    split at h
    · exact .inl (Option.some.inj h).symm
    · exact absurd h (Option.some_ne_none more).symm
  | validator g =>
    unfold perform at h
    dsimp only at h
    split at h
    · exact absurd h (Option.some_ne_none more).symm
    split at h
    · exact .inl (Option.some.inj h).symm
    · exact .inr (.inr (.inr ⟨g, rfl, (Option.some.inj h).symm⟩))
  | _ =>
    left
    unfold perform at h
    dsimp only at h
    first
      | exact (Option.some.inj h).symm
      | (split at h
         · first
            | exact (Option.some.inj h).symm
            | exact absurd h (Option.some_ne_none more).symm
         · first
            | exact (Option.some.inj h).symm
            | exact absurd h (Option.some_ne_none more).symm)

theorem settles_more (h : (d.perform x e).2 = some more) (held : List Lock) : Thread.after held more = held := by
  rcases more_of_perform h with rfl | ⟨-, rfl⟩ | ⟨id, s, -, rfl⟩ | ⟨g, -, rfl⟩
  · rfl
  · exact settles_close held _
  · rfl
  · rfl

theorem sources_perform (hc : ∀ id, e ≠ .create id) (hf : ∀ s, e ≠ .forget s) : (d.perform x e).1.sources = d.sources := by
  cases e with
  | create id => exact absurd rfl (hc id)
  | forget s => exact absurd rfl (hf s)
  | _ =>
    unfold perform
    dsimp only
    repeat' split
    all_goals rfl

end Authority

structure Sound (w : World) : Prop where
  apart : ∀ l ∈ w.loop.held, l ∉ w.executor.held
  loopCode : LoopCode w.loop.held w.loop.code
  plain : ∀ i ∈ w.executor.code, Plain i
  loopSettles : Thread.after w.loop.held w.loop.code = []
  executorSettles : Thread.after w.executor.held w.executor.code = []
  guarded : ∀ s, w.loop.crosses .service (.source s) = true →
    w.loop.code.head? = some (.effect (.found s)) ∨ s ∈ w.authority.sources
  uncrossed : ∀ s ∈ w.authority.sources, w.loop.crosses .service (.source s) = true →
    w.executor.crosses (.source s) .service = false

namespace Sound

variable {w : World}

theorem start : Sound World.start := by
  constructor
  · exact fun l hl => absurd hl List.not_mem_nil
  · trivial
  · exact fun i hi => absurd hi List.not_mem_nil
  · rfl
  · rfl
  · exact fun s hs => absurd hs Bool.false_ne_true
  · exact fun s hs => absurd hs List.not_mem_nil

theorem not_deadlocked (h : Sound w) : ¬ Thread.Deadlocked w.loop w.executor := by
  intro hd
  obtain ⟨p, q, hw, hp, hl, he⟩ := hd.crosses h.apart
  obtain ⟨rest, hcode⟩ : ∃ rest, w.loop.code = .acquire q :: rest := by
    unfold Thread.wants at hw
    cases hc : w.loop.code with
    | nil => rw [hc] at hw; cases hw
    | cons i rest =>
      rw [hc] at hw
      exact ⟨rest, by rw [Option.some.inj hw]⟩
  have hok := h.loopCode
  rw [hcode] at hok
  obtain ⟨hheld | ⟨hheld, s, rfl⟩, -⟩ := hok.1
  · rw [hheld] at hp
    exact List.not_mem_nil hp
  rw [hheld] at hp
  obtain rfl := List.mem_singleton.mp hp
  rcases h.guarded s hl with hf | hs
  · rw [hcode] at hf
    cases hf
  · rw [h.uncrossed s hs hl] at he
    exact Bool.false_ne_true he

theorem held_of_idle {t : Thread Lock Effect} (h : Thread.after t.held t.code = []) (hidle : t.code.isEmpty = true) :
    t.held = [] := by
  rw [List.isEmpty_iff.mp hidle] at h
  exact h

theorem not_crossing_nil (p q : Lock) (code : Code) : Thread.crossing p q [] code = false := by
  rw [Bool.eq_false_iff]
  exact fun hc => List.not_mem_nil (Thread.mem_of_crossing hc)

theorem begin (h : Sound w) (hidle : w.loop.code.isEmpty = true) {code : Code} (hcode : LoopCode [] code)
    (hsettles : Thread.after [] code = []) (d : Authority) : Sound ⟨⟨w.loop.held, code⟩, w.executor, d⟩ := by
  have hheld := held_of_idle h.loopSettles hidle
  have hnone : ∀ s, Thread.crosses .service (.source s) ⟨w.loop.held, code⟩ = false := by
    intro s
    rw [hheld]
    exact not_crossing_nil _ _ _
  constructor
  · exact h.apart
  · change LoopCode w.loop.held code
    rw [hheld]
    exact hcode
  · exact h.plain
  · change Thread.after w.loop.held code = []
    rw [hheld]
    exact hsettles
  · exact h.executorSettles
  · intro s hs
    rw [hnone s] at hs
    exact absurd hs Bool.false_ne_true
  · intro s _ hs
    rw [hnone s] at hs
    exact absurd hs Bool.false_ne_true

theorem beginExecutor (h : Sound w) (hidle : w.executor.code.isEmpty = true) {code : Code} (hplain : ∀ i ∈ code, Plain i)
    (hsettles : Thread.after [] code = []) : Sound { w with executor := ⟨w.executor.held, code⟩ } := by
  have hheld := held_of_idle h.executorSettles hidle
  constructor
  · exact h.apart
  · exact h.loopCode
  · exact hplain
  · exact h.loopSettles
  · change Thread.after w.executor.held code = []
    rw [hheld]
    exact hsettles
  · exact h.guarded
  · intro s _ _
    change Thread.crossing (.source s) .service w.executor.held code = false
    rw [hheld]
    exact not_crossing_nil _ _ _

variable {x : Answer} {d : Authority} {e : Effect}

theorem more_of_plain {more : Code} (hp : Plain (.effect e))
    (hm : (d.perform x e).2 = some more) : more = [] := by
  rcases Authority.more_of_perform hm with rfl | ⟨rfl, -⟩ | ⟨id, s, rfl, -⟩ | ⟨g, rfl, -⟩
  · rfl
  · exact False.elim hp
  · exact False.elim hp
  · exact False.elim hp

variable {held : List Lock} {rest more : Code}

theorem along_more
    (hm : (d.perform x e).2 = some more) (hok : LoopOk held (.effect e) rest) (hrest : LoopCode held rest) :
    LoopCode held (more ++ rest) := by
  rcases Authority.more_of_perform hm with rfl | ⟨rfl, rfl⟩ | ⟨id, s, rfl, rfl⟩ | ⟨g, rfl, rfl⟩
  · exact hrest
  · obtain ⟨rfl, rfl⟩ := hok
    rw [List.append_nil]
    exact loopCode_close _
  · obtain ⟨rfl, rfl⟩ := hok
    rw [List.append_nil]
    exact loopCode_sourceCheck_mint s
  obtain ⟨rfl, rfl⟩ := hok
  rw [List.append_nil]
  exact loopCode_lifetime g

theorem crossing_more {p q : Lock}
    (hm : (d.perform x e).2 = some more) (hok : LoopOk held (.effect e) rest)
    (hc : Thread.crossing p q held (more ++ rest) = true) : Thread.crossing p q held rest = true := by
  have hne : held ≠ [] := List.ne_nil_of_mem (Thread.mem_of_crossing hc)
  rcases Authority.more_of_perform hm with rfl | ⟨rfl, rfl⟩ | ⟨id, s, rfl, rfl⟩ | ⟨g, rfl, rfl⟩
  · exact hc
  · exact absurd hok.1 hne
  · exact absurd hok.1 hne
  · exact absurd hok.1 hne

variable {s : Source}

theorem sources_of_crosses (h : Sound w) (x : Answer)
    (hc : w.loop.crosses .service (.source s) = true) : (w.loopStep x).authority.sources = w.authority.sources := by
  rcases Thread.data_run (f := fun e d => d.perform x e) w.loop w.authority with hd | ⟨e, rest, hcode, hd⟩
  · exact congrArg Authority.sources hd
  change (w.loop.run (fun e d => d.perform x e) w.authority).2.sources = w.authority.sources
  have hok := h.loopCode
  unfold Thread.crosses at hc
  rw [hcode] at hok hc
  have hcr : Thread.crossing .service (.source s) w.loop.held rest = true := (Bool.and_eq_true_iff.mp hc).2
  rw [hd]
  apply Authority.sources_perform
  · rintro id rfl
    rw [hok.1 s] at hcr
    exact Bool.false_ne_true hcr
  rintro s' rfl
  rw [hok.1 s] at hcr
  exact Bool.false_ne_true hcr

theorem crosses_loopStep (h : Sound w) (x : Answer) (hc : (w.loopStep x).loop.crosses .service (.source s) = true) :
    w.loop.crosses .service (.source s) = true ∨ w.loop.enters .service (.source s) = true := by
  apply Thread.crosses_run (f := fun e d => d.perform x e) (d := w.authority) hc
  intro e rest more hcode hm hc
  have hok := h.loopCode
  rw [hcode] at hok
  exact crossing_more hm hok.1 hc

theorem crosses_executorStep (h : Sound w) (x : Answer)
    (hc : (w.executorStep x).executor.crosses (.source s) .service = true) :
    w.executor.crosses (.source s) .service = true ∨ w.executor.enters (.source s) .service = true := by
  apply Thread.crosses_run (f := fun e d => d.perform x e) (d := w.authority) hc
  intro e rest more hcode hm hc
  have hp := h.plain (.effect e) (by rw [hcode]; exact List.mem_cons_self)
  rw [more_of_plain hp hm] at hc
  exact hc

theorem head_of_enters (h : Sound w) (x : Answer) (hc : w.loop.enters .service (.source s) = true) :
    (w.loopStep x).loop.code.head? = some (.effect (.found s)) ∧ (w.loopStep x).authority = w.authority := by
  have hok := h.loopCode
  unfold Thread.enters at hc
  split at hc
  · rename_i l rest hcode
    rw [hcode] at hok
    rw [Bool.and_eq_true] at hc
    obtain ⟨hl, hc⟩ := hc
    obtain ⟨rfl, hn⟩ := of_decide_eq_true hl
    have hstep : w.loop.run (fun e d => d.perform x e) w.authority = (⟨.service :: w.loop.held, rest⟩, w.authority) := by
      unfold Thread.run
      rw [hcode]
    unfold World.loopStep
    rw [hstep]
    obtain ⟨hempty | ⟨-, s', hs'⟩, hnext⟩ := hok.1
    · exact ⟨hnext s hc hempty, rfl⟩
    · cases hs'
  · exact absurd hc Bool.false_ne_true

theorem registered_of_found (hhead : w.loop.code.head? = some (.effect (.found s)))
    (hc : (w.loopStep x).loop.crosses .service (.source s) = true) : s ∈ w.authority.sources := by
  obtain ⟨rest, hcode⟩ : ∃ rest, w.loop.code = .effect (.found s) :: rest := by
    cases hcode : w.loop.code with
    | nil => rw [hcode] at hhead; cases hhead
    | cons i rest =>
      rw [hcode] at hhead
      exact ⟨rest, by rw [Option.some.inj hhead]⟩
  by_cases hs : w.authority.source s.sourceId = some s
  · exact List.mem_of_find?_eq_some hs
  have hstep : (w.loopStep x).loop = ⟨w.loop.held, Thread.unwinding w.loop.held⟩ := by
    unfold World.loopStep Thread.run
    rw [hcode]
    dsimp only
    rw [show w.authority.perform x (.found s) = (w.authority, none) from if_neg hs]
  unfold Thread.crosses at hc
  rw [hstep, Thread.not_crossing_unwinding] at hc
  exact absurd hc Bool.false_ne_true

theorem loopStep (h : Sound w) (hfree : w.loop.free w.executor = true)
    (hcross : w.crossing (.loop x) = false) : Sound (w.loopStep x) := by
  have hregistered : ∀ s, w.loop.crosses .service (.source s) = true →
      (w.loopStep x).loop.crosses .service (.source s) = true → s ∈ w.authority.sources := by
    intro s hc hc'
    rcases h.guarded s hc with hf | hs
    · exact registered_of_found hf hc'
    · exact hs
  constructor
  · exact Thread.apart_run h.apart hfree
  · apply Thread.along_run h.loopCode
    · exact fun _ _ => trivial
    · intro e rest more hcode hm hok hrest
      exact along_more hm hok hrest
  · exact h.plain
  · apply Thread.after_run h.loopSettles
    intro e rest more hcode hm
    exact Authority.settles_more hm _
  · exact h.executorSettles
  · intro s hc
    rcases h.crosses_loopStep x hc with hb | hb
    · right
      rw [h.sources_of_crosses x hb]
      exact hregistered s hb hc
    · exact .inl (h.head_of_enters x hb).1
  · intro s hs hc
    change w.executor.crosses (.source s) .service = false
    rcases h.crosses_loopStep x hc with hb | hb
    · exact h.uncrossed s (hregistered s hb hc) hb
    rw [(h.head_of_enters x hb).2] at hs
    have hn := List.any_eq_false.mp hcross s hs
    rw [hb, Bool.true_and, Bool.not_eq_true] at hn
    exact hn

theorem executorStep (h : Sound w) (hfree : w.executor.free w.loop = true)
    (hcross : w.crossing (.execute x) = false) : Sound (w.executorStep x) := by
  have hsources : (w.executorStep x).authority.sources = w.authority.sources := by
    rcases Thread.data_run (f := fun e d => d.perform x e) w.executor w.authority with hd | ⟨e, rest, hcode, hd⟩
    · exact congrArg Authority.sources hd
    change (w.executor.run (fun e d => d.perform x e) w.authority).2.sources = w.authority.sources
    have hp := h.plain (.effect e) (by rw [hcode]; exact List.mem_cons_self)
    rw [hd]
    apply Authority.sources_perform
    · rintro id rfl
      exact hp
    · rintro s rfl
      exact hp
  constructor
  · intro l hl hl'
    exact Thread.apart_run (fun l hl hl' => h.apart l hl' hl) hfree l hl' hl
  · exact h.loopCode
  · apply Thread.forall_run h.plain
    · trivial
    intro e more hp hm i hi
    rw [more_of_plain hp hm] at hi
    exact absurd hi List.not_mem_nil
  · exact h.loopSettles
  · apply Thread.after_run h.executorSettles
    intro e rest more hcode hm
    exact Authority.settles_more hm _
  · intro s hc
    rw [hsources]
    exact h.guarded s hc
  · intro s hs hc
    rw [hsources] at hs
    rw [Bool.eq_false_iff]
    intro hc'
    rcases h.crosses_executorStep x hc' with hb | hb
    · rw [h.uncrossed s hs hc] at hb
      exact Bool.false_ne_true hb
    have hn := List.any_eq_false.mp hcross s hs
    rw [hb, Bool.true_and] at hn
    exact hn hc

theorem next (h : Sound w) {a : Action} (ha : w.allowed a = true) (hcross : w.crossing a = false) : Sound (w.next a) := by
  cases a with
  | call o => exact h.begin ha o.loopCode o.settles _
  | resume i =>
    unfold World.next
    dsimp only
    split
    · exact h.begin ha (loopCode_resume _) (settles_resume _) _
    · exact h
  | loop x => exact h.loopStep ha hcross
  | assertCurrent g => exact h.beginExecutor ha (plain_assertCurrent g) (settles_assertCurrent g)
  | commit => exact h.beginExecutor ha (plain_commit _) (settles_commit _)
  | abandon => exact ⟨h.apart, h.loopCode, h.plain, h.loopSettles, h.executorSettles, h.guarded, h.uncrossed⟩
  | execute x => exact h.executorStep ha hcross

theorem of_reachable (h : orderly.Reachable w) : Sound w := by
  apply h.invariant (P := Sound)
  · rintro w rfl
    exact start
  · exact fun w a hw ha => hw.next ha.1 ha.2

end Sound

/-- Runs whose steps never cross do not deadlock. -/
theorem never_deadlocked {w : World} (h : orderly.Reachable w) : ¬ Thread.Deadlocked w.loop w.executor :=
  (Sound.of_reachable h).not_deadlocked

namespace Sample

def source : Source := ⟨0, "s"⟩

def grant : Grant := ⟨1, some source⟩

def passes : Answer := ⟨true, [], false⟩

def steps (n : ℕ) : List Action := List.replicate n (.loop passes)

def executes (n : ℕ) : List Action := List.replicate n (.execute passes)

def granted : List Action :=
  .call (.registerSource "s") :: steps 3 ++ .call (.issue source) :: steps 4 ++ .call (.authorize "s") :: steps 8 ++
    .assertCurrent grant :: executes 10

def overlapping : List Action :=
  granted ++ .commit :: executes 2 ++ .call (.unregisterSource source) :: steps 2

def overlapped : System.CheckedRun World.next World.allowed World.start := ⟨overlapping, by decide +kernel⟩

def apart : List Action :=
  granted ++ .commit :: executes 12 ++ .call (.unregisterSource source) :: steps 7

end Sample

/-- The loop holds the service lock and waits for the source's, which the executor holds while it waits for the
service lock. -/
theorem unregister_during_commit_deadlocks : ¬ ∀ w, system.Reachable w → ¬ Thread.Deadlocked w.loop w.executor := by
  intro hall
  have htrace : system.Trace World.start Sample.overlapping (Sample.overlapping.foldl World.next World.start) :=
    System.Trace.of_checked (fun _ _ h => h) Sample.overlapped.property
  apply hall _ ⟨World.start, _, rfl, htrace⟩
  exact ⟨.service, .source Sample.source, by decide +kernel⟩

theorem never_deadlocked_apart : ¬ Thread.Deadlocked (Sample.apart.foldl World.next World.start).loop
      (Sample.apart.foldl World.next World.start).executor := by
  apply never_deadlocked (w := Sample.apart.foldl World.next World.start)
  have hcheck : ∀ (w : World) (a : Action), (w.allowed a && !w.crossing a) = true → orderly.allowed w a := by
    intro w a h
    rw [Bool.and_eq_true, Bool.not_eq_true'] at h
    exact h
  have htrace : orderly.Trace World.start Sample.apart (Sample.apart.foldl World.next World.start) :=
    System.Trace.of_checked hcheck (by decide +kernel)
  exact ⟨World.start, _, rfl, htrace⟩

end GameLink.Admin
