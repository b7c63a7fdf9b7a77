import Mathlib.Data.List.Nodup
import GameLink.Executor.Queue

namespace GameLink.Executor

open Foundation

namespace World

variable (w : World)

def running : List Job := w.workers.filterMap Prod.snd

def outcomes : List (Job × Outcome) := w.runs.map fun e => (e.1, e.2.outcome)

end World

def Caller.accepted : Caller → Bool
  | .awaiting _ => true
  | .ended _ => true
  | _ => false

structure Run.Sound (r : Run) : Prop where
  closed : r.closed = true
  stored : ∀ f, r.outcome = .error f → r.stored = r.own
  called : r.called = if r.began then 1 else 0

structure Sound (w : World) : Prop where
  worker : w.worker = none ∧ w.workers = [] ∨ ∃ n job, w.worker = some n ∧ w.workers = [(n, job)]
  served : w.queue ≠ [] → w.workers ≠ []
  order : w.accepted = w.taken ++ w.queue.map Job.number
  begun : w.taken = w.runs.map (fun e => e.1.number) ++ w.running.map Job.number
  counted : w.outstanding = w.queue.length + w.running.length + w.finishes.length
  slots : w.slots + w.outstanding = capacity
  once : w.accepted.Nodup
  fresh : ∀ c, w.requests ≤ c → w.callers c = .absent
  callers : ∀ c, c ∈ w.accepted ↔ (w.callers c).accepted = true
  futures : ∃ done, w.outcomes = done ++ w.finishes ∧
    ∀ c o, w.futures c = some o ↔ ∃ job, job.number = c ∧ (job, o) ∈ done
  cancels : ∀ c, w.callers c = .awaiting true → c ∈ w.cancels
  ended : ∀ c o, w.callers c = .ended o → ∃ o', w.futures c = some o' ∧ (o = some o' ∨ o = none ∧ c ∈ w.cancels)
  runs : ∀ e ∈ w.runs, e.2.Sound
  closed : w.state = .closed → w.outstanding = 0 ∧ w.workers = []
  returned : ∀ k, w.closers k = .returned → w.state = .closed

namespace Sound

variable {w : World}

theorem start (stored : List ℕ) : Sound (World.start stored) := by
  constructor
  · exact .inl ⟨rfl, rfl⟩
  · exact fun hq => absurd rfl hq
  · rfl
  · rfl
  · rfl
  · rfl
  · exact List.nodup_nil
  · exact fun _ _ => rfl
  · intro c
    constructor
    · exact fun hc => absurd hc List.not_mem_nil
    · exact fun hc => absurd hc Bool.false_ne_true
  · refine ⟨[], rfl, ?_⟩
    intro c o
    constructor
    · exact fun hf => absurd hf.symm (Option.some_ne_none o)
    · rintro ⟨job, -, hj⟩
      exact absurd hj List.not_mem_nil
  · exact fun c hc => nomatch hc
  · exact fun c o hc => nomatch hc
  · exact fun e he => absurd he List.not_mem_nil
  · exact fun hs => nomatch hs
  · exact fun k hk => nomatch hk

variable {c : ℕ}

section

variable (h : Sound w)
include h

theorem setCaller {s : Caller} (hc : (w.callers c).accepted = false) (hs : s.accepted = false)
    (hlt : c < w.requests) : Sound (w.setCaller c s) := by
  have hne : ∀ c', (Function.update w.callers c s c').accepted = true → c' ≠ c := by
    rintro c' ha rfl
    rw [Function.update_self, hs] at ha
    exact Bool.false_ne_true ha
  refine { h with fresh := ?_, callers := ?_, cancels := ?_, ended := ?_ }
  · intro c' hc'
    have hne' : c' ≠ c := fun heq => Nat.not_lt.mpr hc' (heq ▸ hlt)
    change Function.update w.callers c s c' = .absent
    rw [Function.update_of_ne hne']
    exact h.fresh c' hc'
  · intro c'
    change c' ∈ w.accepted ↔ (Function.update w.callers c s c').accepted = true
    by_cases heq : c' = c
    · subst heq
      rw [Function.update_self, h.callers, hc, hs]
    · rw [Function.update_of_ne heq]
      exact h.callers c'
  · intro c' hc'
    have hc'' : Function.update w.callers c s c' = .awaiting true := hc'
    have hn := hne c' (by rw [hc'']; rfl)
    rw [Function.update_of_ne hn] at hc''
    exact h.cancels c' hc''
  · intro c' o hc'
    have hc'' : Function.update w.callers c s c' = .ended o := hc'
    have hn := hne c' (by rw [hc'']; rfl)
    rw [Function.update_of_ne hn] at hc''
    exact h.ended c' o hc''

theorem lt_requests (hc : w.callers c ≠ .absent) : c < w.requests := by
  by_contra hlt
  exact hc (h.fresh c (Nat.not_lt.mp hlt))

theorem submit (kind : Kind) : Sound (w.next (.submit kind)) := by
  have habsent := h.fresh w.requests (Nat.le_refl _)
  have hmore : Sound { w with requests := w.requests + 1 } :=
    { h with fresh := fun c hc => h.fresh c (Nat.le_of_succ_le hc) }
  apply hmore.setCaller
  · change (w.callers w.requests).accepted = false
    rw [habsent]
    rfl
  · rfl
  · exact Nat.lt_succ_self _

variable {kind : Kind}

theorem refuse (hc : w.callers c = .waiting kind) (r : Refusal) :
    Sound (w.setCaller c (.refused r)) := by
  apply h.setCaller
  · rw [hc]
    rfl
  · rfl
  apply h.lt_requests
  rw [hc]
  exact fun hn => nomatch hn

theorem accept (hc : w.callers c = .waiting kind) (hslots : 0 < w.slots)
    (hopen : w.state = .opened) (hworkers : w.workers ≠ []) (idle : Bool) :
    Sound ({ w with
      slots := w.slots - 1, outstanding := w.outstanding + 1, idle := idle
      queue := w.queue ++ [Job.mk c kind], accepted := w.accepted ++ [c] }.setCaller c (.awaiting false)) := by
  have hnot : c ∉ w.accepted := by
    rw [h.callers, hc]
    exact Bool.false_ne_true
  have hlt : c < w.requests := by
    apply h.lt_requests
    rw [hc]
    exact fun hn => nomatch hn
  refine { h with
    served := fun _ => hworkers, order := ?_, counted := ?_, slots := ?_, once := ?_, fresh := ?_, callers := ?_
    cancels := ?_, ended := ?_, closed := ?_ }
  · change w.accepted ++ [c] = w.taken ++ (w.queue ++ [Job.mk c kind]).map Job.number
    rw [h.order, List.map_append, List.append_assoc]
    rfl
  · change w.outstanding + 1 = (w.queue ++ [Job.mk c kind]).length + w.running.length + w.finishes.length
    have hcounted := h.counted
    rw [List.length_append, List.length_singleton]
    omega
  · change w.slots - 1 + (w.outstanding + 1) = capacity
    have hsum := h.slots
    omega
  · change (w.accepted ++ [c]).Nodup
    rw [List.nodup_append]
    refine ⟨h.once, List.nodup_singleton c, ?_⟩
    rintro a ha b hb rfl
    rw [List.mem_singleton.mp hb] at ha
    exact hnot ha
  · intro c' hc'
    change Function.update w.callers c (.awaiting false) c' = .absent
    have hne : c' ≠ c := fun heq => Nat.not_lt.mpr hc' (heq ▸ hlt)
    rw [Function.update_of_ne hne]
    exact h.fresh c' hc'
  · intro c'
    change c' ∈ w.accepted ++ [c] ↔ (Function.update w.callers c (.awaiting false) c').accepted = true
    rw [List.mem_append, List.mem_singleton]
    by_cases heq : c' = c
    · subst heq
      rw [Function.update_self]
      exact ⟨fun _ => rfl, fun _ => .inr rfl⟩
    · rw [Function.update_of_ne heq, ← h.callers]
      exact or_iff_left heq
  · intro c' hc'
    have hc'' : Function.update w.callers c (.awaiting false) c' = .awaiting true := hc'
    by_cases heq : c' = c
    · subst heq
      rw [Function.update_self] at hc''
      cases hc''
    · rw [Function.update_of_ne heq] at hc''
      exact h.cancels c' hc''
  · intro c' o hc'
    have hc'' : Function.update w.callers c (.awaiting false) c' = .ended o := hc'
    by_cases heq : c' = c
    · subst heq
      rw [Function.update_self] at hc''
      cases hc''
    · rw [Function.update_of_ne heq] at hc''
      exact h.ended c' o hc''
  · intro hs
    have hs' : w.state = .closed := hs
    rw [hopen] at hs'
    cases hs'

theorem launch (hopen : w.state = .opened) (hnone : w.worker = none) : Sound { w with
      worker := some w.threads, threads := w.threads + 1, workers := w.workers ++ [(w.threads, none)] } := by
  have hworkers : w.workers = [] := by
    rcases h.worker with hw | ⟨n, job, hw, -⟩
    · exact hw.2
    · rw [hnone] at hw
      cases hw
  have hrunning : (w.workers ++ [(w.threads, none)]).filterMap Prod.snd = w.running := by
    unfold World.running
    rw [hworkers]
    rfl
  refine { h with worker := ?_, served := ?_, begun := ?_, counted := ?_, closed := ?_ }
  · right
    refine ⟨w.threads, none, rfl, ?_⟩
    change w.workers ++ [(w.threads, none)] = _
    rw [hworkers]
    rfl
  · intro _
    exact List.append_ne_nil_of_right_ne_nil _ (List.cons_ne_nil _ _)
  · change w.taken = _ ++ ((w.workers ++ [(w.threads, none)]).filterMap Prod.snd).map Job.number
    rw [hrunning]
    exact h.begun
  · change w.outstanding = _ + ((w.workers ++ [(w.threads, none)]).filterMap Prod.snd).length + _
    rw [hrunning]
    exact h.counted
  intro hs
  have hs' : w.state = .closed := hs
  rw [hopen] at hs'
  cases hs'

theorem queue_le : w.queue.length ≤ w.outstanding := by
  have hcounted := h.counted
  omega

/-- What `_submit` comes to when its thread starts: it is refused by a closing executor and changes nothing else, or
its job is accepted. -/
theorem enter_cases {started : Bool} (hc : w.callers c = .waiting kind)
    (hslots : 0 < w.slots) (hs : w.smooth (.enter c started) = true) :
    (w.state ≠ .opened ∧ w.enter c started = w.setCaller c (.refused .closing)) ∨
    w.state = .opened ∧ (w.enter c started).accepted = w.accepted ++ [c] ∧
      (w.enter c started).callers = Function.update w.callers c (.awaiting false) ∧
      (w.enter c started).closers = w.closers ∧ Sound (w.enter c started) := by
  have hfull : ¬ capacity ≤ w.queue.length := by
    have hle := h.queue_le
    have hsum := h.slots
    omega
  unfold World.enter World.enterLocked
  rw [hc]
  dsimp only
  by_cases hopen : w.state = .opened
  · right
    refine ⟨hopen, ?_⟩
    rw [if_neg (fun hn => hn hopen)]
    split
    · rename_i n hworker
      have hworkers : w.workers ≠ [] := by
        rcases h.worker with hw | ⟨n', job, -, hw⟩
        · have hw' : w.worker = some n := hworker
          rw [hw.1] at hw'
          cases hw'
        · rw [hw]
          exact List.cons_ne_nil _ _
      unfold World.put
      rw [if_neg hfull]
      exact ⟨rfl, rfl, rfl, h.accept hc hslots hopen hworkers false⟩
    · rename_i hworker
      have hstarted : started = true := by
        have hnone : w.worker = none := hworker
        unfold World.smooth at hs
        rw [hnone, hopen] at hs
        cases started with
        | true => rfl
        | false => simp at hs
      rw [if_pos hstarted]
      unfold World.put
      rw [if_neg hfull]
      exact ⟨rfl, rfl, rfl, (h.launch hopen hworker).accept hc hslots hopen
        (List.append_ne_nil_of_right_ne_nil _ (List.cons_ne_nil _ _)) false⟩
  · left
    refine ⟨hopen, ?_⟩
    rw [if_pos hopen]
    unfold World.refuse
    have hslot : w.slots - 1 + 1 = w.slots := Nat.sub_add_cancel hslots
    dsimp only
    rw [hslot]

end

theorem waiting_of_allowed {started : Bool} (ha : w.allowed (.enter c started) = true) :
    ∃ kind, w.callers c = .waiting kind ∧ 0 < w.slots := by
  unfold World.allowed at ha
  dsimp only at ha
  split at ha
  · rename_i kind hc
    exact ⟨kind, hc, of_decide_eq_true ha⟩
  · exact absurd ha Bool.false_ne_true

theorem enter (h : Sound w) {started : Bool} (ha : w.allowed (.enter c started) = true)
    (hs : w.smooth (.enter c started) = true) : Sound (w.enter c started) := by
  obtain ⟨kind, hc, hslots⟩ := waiting_of_allowed ha
  rcases h.enter_cases hc hslots hs with ⟨-, heq⟩ | ⟨-, -, -, -, h'⟩
  · rw [heq]
    exact h.refuse hc .closing
  · exact h'

theorem setAccepted (h : Sound w) {s : Caller} (hc : (w.callers c).accepted = true) (hs : s.accepted = true)
    (hcancel : s = .awaiting true → c ∈ w.cancels)
    (hend : ∀ o, s = .ended o → ∃ o', w.futures c = some o' ∧ (o = some o' ∨ o = none ∧ c ∈ w.cancels)) :
    Sound (w.setCaller c s) := by
  have hlt : c < w.requests := by
    apply h.lt_requests
    intro hn
    rw [hn] at hc
    exact Bool.false_ne_true hc
  refine { h with fresh := ?_, callers := ?_, cancels := ?_, ended := ?_ }
  · intro c' hc'
    have hne' : c' ≠ c := fun heq => Nat.not_lt.mpr hc' (heq ▸ hlt)
    change Function.update w.callers c s c' = .absent
    rw [Function.update_of_ne hne']
    exact h.fresh c' hc'
  · intro c'
    change c' ∈ w.accepted ↔ (Function.update w.callers c s c').accepted = true
    by_cases heq : c' = c
    · subst heq
      rw [Function.update_self, h.callers, hc, hs]
    · rw [Function.update_of_ne heq]
      exact h.callers c'
  · intro c' hc'
    have hc'' : Function.update w.callers c s c' = .awaiting true := hc'
    by_cases heq : c' = c
    · subst heq
      rw [Function.update_self] at hc''
      exact hcancel hc''
    · rw [Function.update_of_ne heq] at hc''
      exact h.cancels c' hc''
  · intro c' o hc'
    have hc'' : Function.update w.callers c s c' = .ended o := hc'
    by_cases heq : c' = c
    · subst heq
      rw [Function.update_self] at hc''
      exact hend o hc''
    · rw [Function.update_of_ne heq] at hc''
      exact h.ended c' o hc''

theorem cancel (h : Sound w) (c : ℕ) : Sound (w.cancel c) := by
  unfold World.cancel
  split
  · rename_i kind hc
    exact h.refuse hc .cancelled
  · rename_i x hc
    have hmore : Sound { w with cancels := c :: w.cancels } := by
      refine { h with cancels := ?_, ended := ?_ }
      · intro c' hc'
        exact List.mem_cons_of_mem _ (h.cancels c' hc')
      intro c' o hc'
      obtain ⟨o', ho', ho⟩ := h.ended c' o hc'
      refine ⟨o', ho', ?_⟩
      rcases ho with ho | ⟨ho, hm⟩
      · exact .inl ho
      · exact .inr ⟨ho, List.mem_cons_of_mem _ hm⟩
    apply hmore.setAccepted
    · change (w.callers c).accepted = true
      rw [hc]
      rfl
    · rfl
    · exact fun _ => List.mem_cons_self
    · exact fun o ho => nomatch ho
  · exact h

theorem resume (h : Sound w) (c : ℕ) : Sound (w.resume c) := by
  unfold World.resume
  split
  · rename_i cancelled o hc ho
    apply h.setAccepted
    · rw [hc]
      rfl
    · rfl
    · exact fun hn => nomatch hn
    intro o' ho'
    refine ⟨o, ho, ?_⟩
    obtain rfl := Caller.ended.inj ho'
    cases cancelled with
    | true => exact .inr ⟨rfl, h.cancels c hc⟩
    | false => exact .inl rfl
  · exact h

variable {n : ℕ} {job : Option Job}

theorem single (h : Sound w) (hn : w.workers.lookup n = some job) :
    w.worker = some n ∧ w.workers = [(n, job)] := by
  rcases h.worker with ⟨-, hw⟩ | ⟨n', job', hworker, hw⟩
  · rw [hw] at hn
    cases hn
  rw [hw, List.lookup_cons] at hn
  by_cases heq : n = n'
  · subst heq
    rw [beq_self_eq_true] at hn
    obtain rfl := Option.some.inj hn
    exact ⟨hworker, hw⟩
  · rw [beq_false_of_ne heq] at hn
    cases hn

theorem workers_setWorker (hw : w.workers = [(n, job)]) (job' : Option Job) :
    (w.setWorker n job').workers = [(n, job')] := by
  unfold World.setWorker
  dsimp only
  rw [hw, List.map_singleton, if_pos rfl]

section

variable (h : Sound w)
include h

theorem take (hn : w.workers.lookup n = some none) : Sound (w.take n) := by
  obtain ⟨hworker, hw⟩ := h.single hn
  unfold World.take
  split
  · rename_i job queue hq
    have hrunning : w.running = [] := by
      unfold World.running
      rw [hw]
      rfl
    have hworkers := workers_setWorker (w := { w with queue := queue, taken := w.taken ++ [job.number] }) hw (some job)
    have hrunning' : World.running (World.setWorker { w with queue := queue, taken := w.taken ++ [job.number] } n
        (some job)) = [job] := by
      unfold World.running
      rw [hworkers]
      rfl
    refine { h with
      worker := .inr ⟨n, some job, hworker, hworkers⟩, served := ?_, order := ?_, begun := ?_, counted := ?_
      closed := ?_ }
    · intro _
      rw [hworkers]
      exact List.cons_ne_nil _ _
    · change w.accepted = (w.taken ++ [job.number]) ++ queue.map Job.number
      rw [h.order, hq, List.append_assoc]
      rfl
    · rw [hrunning']
      change w.taken ++ [job.number] = w.runs.map (fun e => e.1.number) ++ [job.number]
      rw [h.begun, hrunning, List.map_nil, List.append_nil]
    · rw [hrunning']
      change w.outstanding = queue.length + 1 + w.finishes.length
      have hcounted := h.counted
      rw [hq, hrunning, List.length_cons, List.length_nil] at hcounted
      omega
    intro hs
    have hs' := h.closed hs
    rw [hw] at hs'
    exact absurd hs'.2 (List.cons_ne_nil _ _)
  · exact h

theorem complete {course : Course} (hs : course.closing = true) : Sound (w.complete n course) := by
  unfold World.complete
  split
  · rename_i job hn
    obtain ⟨hworker, hw⟩ := h.single hn
    have hrunning : w.running = [job] := by
      unfold World.running
      rw [hw]
      rfl
    dsimp only
    generalize hr : runJob job.kind course w.stored = r
    have hsound : r.Sound := by
      rw [← hr]
      exact ⟨runJob_closed hs, fun f hf => runJob_error hf, runJob_called⟩
    generalize hw' : ({ w with
      stored := r.stored, runs := w.runs ++ [(job, r)], finishes := w.finishes ++ [(job, r.outcome)] } : World) = w'
    have hsame : w'.workers = [(n, some job)] := by
      rw [← hw']
      exact hw
    have hworkers := workers_setWorker hsame none
    have hrunning' : (w'.setWorker n none).running = [] := by
      unfold World.running
      rw [hworkers]
      rfl
    subst hw'
    refine { h with
      worker := .inr ⟨n, none, hworker, hworkers⟩, served := ?_, begun := ?_, counted := ?_, futures := ?_
      runs := ?_, closed := ?_ }
    · intro _
      rw [hworkers]
      exact List.cons_ne_nil _ _
    · rw [hrunning']
      change w.taken = (w.runs ++ [(job, r)]).map (fun e => e.1.number) ++ []
      rw [h.begun, hrunning, List.map_append, List.append_nil]
      rfl
    · rw [hrunning']
      change w.outstanding = w.queue.length + 0 + (w.finishes ++ [(job, r.outcome)]).length
      have hcounted := h.counted
      rw [hrunning, List.length_singleton] at hcounted
      rw [List.length_append, List.length_singleton]
      omega
    · obtain ⟨done, hdone, hfutures⟩ := h.futures
      refine ⟨done, ?_, hfutures⟩
      change (w.runs ++ [(job, r)]).map (fun e => (e.1, e.2.outcome)) = done ++ (w.finishes ++ [(job, r.outcome)])
      rw [List.map_append, ← List.append_assoc, ← hdone]
      rfl
    · intro e he
      rcases List.mem_append.mp he with he | he
      · exact h.runs e he
      · rw [List.mem_singleton.mp he]
        exact hsound
    · intro hc
      have hc' := h.closed hc
      rw [hw] at hc'
      exact absurd hc'.2 (List.cons_ne_nil _ _)
  · exact h

theorem retire (hn : w.workers.lookup n = some none) : Sound (w.retire n) := by
  obtain ⟨hworker, hw⟩ := h.single hn
  unfold World.retire
  split
  · rename_i hq
    have hfilter : w.workers.filter (fun e => e.1 ≠ n) = [] := by
      rw [hw]
      simp
    have hrunning : w.running = [] := by
      unfold World.running
      rw [hw]
      rfl
    refine { h with
      worker := .inl ⟨rfl, hfilter⟩, served := fun hq' => absurd hq.1 hq', begun := ?_, counted := ?_
      closed := fun hs => ⟨(h.closed hs).1, hfilter⟩ }
    · change w.taken = _ ++ ((w.workers.filter fun e => e.1 ≠ n).filterMap Prod.snd).map Job.number
      rw [hfilter, h.begun, hrunning]
      rfl
    change w.outstanding = _ + ((w.workers.filter fun e => e.1 ≠ n).filterMap Prod.snd).length + _
    rw [hfilter, h.counted, hrunning]
    rfl
  · exact h

theorem nodup_outcomes : (w.outcomes.map fun e => e.1.number).Nodup := by
  have hall := h.once
  rw [h.order, h.begun] at hall
  have hruns := (List.nodup_append.mp (List.nodup_append.mp hall).1).1
  have heq : w.outcomes.map (fun e => e.1.number) = w.runs.map fun e => e.1.number := by
    unfold World.outcomes
    rw [List.map_map]
    rfl
  rw [heq]
  exact hruns

theorem finish : Sound w.finish := by
  unfold World.finish
  split
  · rename_i job o finishes hf
    obtain ⟨done, hdone, hfutures⟩ := h.futures
    have hnone : w.futures job.number = none := by
      cases hfut : w.futures job.number with
      | none => rfl
      | some o' =>
        obtain ⟨job', hnumber, hmem⟩ := (hfutures _ _).mp hfut
        have hnodup := h.nodup_outcomes
        rw [hdone, hf, List.map_append, List.nodup_append] at hnodup
        exact absurd hnumber (hnodup.2.2 _ (List.mem_map_of_mem hmem) _ List.mem_cons_self)
    have hpos : w.outstanding ≠ 0 := by
      have hcounted := h.counted
      rw [hf, List.length_cons] at hcounted
      omega
    dsimp only
    refine { h with
      counted := ?_, slots := ?_, futures := ?_, ended := ?_, closed := ?_ }
    · change w.outstanding - 1 = w.queue.length + w.running.length + finishes.length
      have hcounted := h.counted
      rw [hf, List.length_cons] at hcounted
      omega
    · change w.slots + 1 + (w.outstanding - 1) = capacity
      have hsum := h.slots
      omega
    · refine ⟨done ++ [(job, o)], ?_, ?_⟩
      · change w.outcomes = done ++ [(job, o)] ++ finishes
        rw [hdone, hf, List.append_assoc]
        rfl
      intro c o'
      change (if w.futures job.number = none then Function.update w.futures job.number (some o) else w.futures) c =
        some o' ↔ _
      rw [if_pos hnone]
      by_cases heq : c = job.number
      · subst heq
        rw [Function.update_self]
        constructor
        · intro ho
          obtain rfl := Option.some.inj ho
          exact ⟨job, rfl, List.mem_append_right _ List.mem_cons_self⟩
        rintro ⟨job', hnumber, hmem⟩
        rcases List.mem_append.mp hmem with hmem | hmem
        · have hold := (hfutures _ _).mpr ⟨job', hnumber, hmem⟩
          rw [hnone] at hold
          cases hold
        · rw [(Prod.mk.inj (List.mem_singleton.mp hmem)).2]
      · rw [Function.update_of_ne heq, hfutures]
        constructor
        · rintro ⟨job', hnumber, hmem⟩
          exact ⟨job', hnumber, List.mem_append_left _ hmem⟩
        rintro ⟨job', hnumber, hmem⟩
        rcases List.mem_append.mp hmem with hmem | hmem
        · exact ⟨job', hnumber, hmem⟩
        · rw [(Prod.mk.inj (List.mem_singleton.mp hmem)).1] at hnumber
          exact absurd hnumber.symm heq
    · intro c o' hc
      obtain ⟨o'', ho'', hor⟩ := h.ended c o' hc
      refine ⟨o'', ?_, hor⟩
      change (if w.futures job.number = none then Function.update w.futures job.number (some o) else w.futures) c = some o''
      rw [if_pos hnone]
      have hne : c ≠ job.number := by
        rintro rfl
        rw [hnone] at ho''
        cases ho''
      rw [Function.update_of_ne hne]
      exact ho''
    · intro hs
      exact absurd (h.closed hs).1 hpos
  · exact h

theorem setCloser {k : ℕ} {s : Closer} (hs : s = .returned → w.state = .closed) : Sound (w.setCloser k s) := by
  refine { h with returned := ?_ }
  intro k' hk'
  have hk'' : Function.update w.closers k s k' = .returned := hk'
  by_cases heq : k' = k
  · subst heq
    rw [Function.update_self] at hk''
    exact hs hk''
  · rw [Function.update_of_ne heq] at hk''
    exact h.returned k' hk''

theorem close (k : ℕ) : Sound (w.close k) := by
  unfold World.close
  split
  · rename_i hc
    exact h.setCloser fun _ => hc
  rename_i hc
  have hclosing : Sound { w with state := .closing } :=
    { h with closed := (fun hs => nomatch hs), returned := fun k' hk' => absurd (h.returned k' hk') hc }
  exact hclosing.setCloser fun hs => nomatch hs

theorem workers_of_dead (hd : w.dead = true) : w.workers = [] := by
  rcases h.worker with ⟨-, hw⟩ | ⟨n, job, hworker, hw⟩
  · exact hw
  unfold World.dead at hd
  rw [hworker, hw] at hd
  dsimp only at hd
  rw [List.lookup_cons, beq_self_eq_true] at hd
  cases hd

theorem poll (k : ℕ) : Sound (w.poll k) := by
  unfold World.poll
  split
  · rename_i hp
    have hclosed : Sound { w with state := .closed } :=
      { h with closed := fun _ => ⟨hp.1, h.workers_of_dead hp.2⟩, returned := fun _ _ => rfl }
    exact hclosed.setCloser fun _ => rfl
  · exact h

theorem next {a : Action} (ha : w.allowed a = true) (hs : w.smooth a = true) : Sound (w.next a) := by
  cases a with
  | submit kind => exact h.submit kind
  | enter c started => exact h.enter ha hs
  | cancel c => exact h.cancel c
  | take n =>
    have ha' := (Bool.and_eq_true_iff.mp ha).1
    exact h.take (of_decide_eq_true ha')
  | complete n course => exact h.complete hs
  | retire n => exact h.retire (of_decide_eq_true ha)
  | finish => exact h.finish
  | resume c => exact h.resume c
  | close k => exact h.close k
  | poll k => exact h.poll k
  | timeOut k => exact h.setCloser fun hs => nomatch hs

end

theorem of_reachable (h : smooth.Reachable w) : Sound w := by
  apply h.invariant (P := Sound)
  · rintro w ⟨stored, rfl⟩
    exact start stored
  · exact fun w a hw ha => hw.next ha.1 ha.2

end Sound

end GameLink.Executor
