import GameLink.Resources.Crashes

namespace GameLink.Resources

open Foundation Contracts

def Action.interrupts : Action → Bool
  | delete _ => true
  | crash => true
  | _ => false

section

variable [ContentHashing] {c : CachePolicies} {w w' : World} {job : Job} {ref : Ref} {r : Room} {st : Stage} {a : Action}
  {answer : Answer}

structure Progress (w' : World) (job : Job) : Prop where
  moved : ∃ job', w'.active = some job' ∧ job'.request = job.request ∧ job'.stage.fails = false ∧
    job'.stage.remaining ≤ job.stage.remaining - 1

omit [ContentHashing] in
theorem Progress.of_goto {job' : Job} (hrequest : job'.request = job.request) (hfine : st.fails = false)
    (hless : st.remaining ≤ job.stage.remaining - 1) : Progress (w.goto job' st) job :=
  ⟨⟨{ job' with stage := st }, rfl, hrequest, hfine, hless⟩⟩

omit [ContentHashing] in
theorem Progress.checked (hpassed : answer.passed = true) (h : Progress w' job) : Progress (w.checked job answer w') job := by
  unfold World.checked
  rw [if_pos hpassed]
  exact h

variable {answers : List Answer}

section

variable {operation : String} {file : Ref × Content}

end

end

attribute [local instance] Sample.hashing

open Sample

def permitsCareful (w : World) (a : Action) : Bool := permits w a && !a.interrupts

theorem careful_of_permits {w : World} {a : Action} (h : permitsCareful w a = true) :
    (careful policies).allowed w a := by
  rw [permitsCareful, Bool.and_eq_true, Bool.not_eq_true'] at h
  refine ⟨allowed_of_permits h.1, ?_⟩
  cases a with
  | delete ref => cases h.2
  | crash => cases h.2
  | _ => trivial

end GameLink.Resources
