import GameLink.Jobs.History

namespace GameLink.Jobs

open Foundation Work

def JobStore.Constrained (s : JobStore) : Prop :=
  s.jobs.rows.all DurableJob.checks = true ∧ (activeInputs s.jobs.rows).Nodup

variable {s : JobStore} {p : DurableJob → Bool}

theorem updateJobs_keeps {f : DurableJob → DurableJob} {hf : ∀ r, (f r).jobId = r.jobId} :
    Keeps JobStore.Constrained (updateJobs p f hf) := by
  intro u h
  cases hw : updateJobs p f hf u with
  | mk x v =>
    cases x with
    | ok n =>
      obtain ⟨hchecks, hunique, -, rfl⟩ := updateJobs_gives.mp hw
      exact ⟨hchecks, hunique⟩
    | error e =>
      have hraises : (updateJobs p f hf).Raises u e v := hw
      have hsame : u = v := by
        simp [updateJobs] at hraises
        grind
      rw [← hsame]
      exact h

theorem insertJob_keeps {r : DurableJob} : Keeps JobStore.Constrained (insertJob r) := by
  intro u h
  cases hw : insertJob r u with
  | mk x v =>
    cases x with
    | ok n =>
      obtain ⟨hchecks, -, jobs, hi, hunique, rfl⟩ := insertJob_gives.mp hw
      refine ⟨?_, hunique⟩
      rw [Table.rows_of_insert hi, List.all_append, h.1]
      simp [hchecks]
    | error e =>
      have hraises : (insertJob r).Raises u e v := hw
      have hsame : u = v := by
        simp [insertJob] at hraises
        grind
      rw [← hsame]
      exact h

theorem keeps_write {f : JobStore → JobStore} (hf : ∀ s, (f s).jobs = s.jobs) :
    Keeps JobStore.Constrained (write f : JobWork Unit) := by
  apply Keeps.write
  intro s h
  unfold JobStore.Constrained
  rw [hf]
  exact h

theorem deleteJobs_keeps : Keeps JobStore.Constrained (deleteJobs p) := by
  refine .bind .read fun s => .bind (.write ?_) fun _ => .pure
  intro s ⟨hchecks, hunique⟩
  constructor
  · rw [List.all_eq_true] at hchecks ⊢
    intro r hr
    exact hchecks r (List.mem_of_mem_filter hr)
  · exact hunique.sublist ((List.filter_sublist.filter _).map _)

theorem insertResults_keeps {jobId : String} {sequence : ℕ} {encoded : List Json} :
    Keeps JobStore.Constrained (insertResults jobId sequence encoded) := by
  induction encoded generalizing sequence with
  | nil => exact .pure
  | cons raw rest ih =>
    refine .bind ?_ fun _ => ih
    exact .bind .read fun s => .bind .raiseIf fun _ => .bind .orRaise fun _ => keeps_write fun _ => rfl

theorem owned_keeps {owner module jobId : String} : Keeps JobStore.Constrained (owned owner module jobId) :=
  .bind .read fun _ => .orRaise

theorem addCommitGuard_keeps {g : JobStore → Option JobFailure} :
    Keeps JobStore.Constrained (addCommitGuard g : JobWork Unit) := fun _ h => h

variable {q : Submission}

theorem previous_keeps {digest : String} : Keeps JobStore.Constrained (q.previous digest) := by
  unfold Submission.previous
  split
  · exact .pure
  refine .bind .read fun s => ?_
  split
  · exact .pure
  · exact .bind .raiseIf fun _ => .bind owned_keeps fun _ => .pure

variable {digest jobId : String}

theorem obtainJob_keeps {raw : Json} :
    Keeps JobStore.Constrained (q.obtainJob raw digest jobId) := by
  refine .bind .read fun s => ?_
  split
  · exact .pure
  · exact .bind .raiseIf fun _ => .bind insertJob_keeps fun _ => .pure

theorem rememberRequest_keeps :
    Keeps JobStore.Constrained (q.rememberRequest digest jobId) := by
  unfold Submission.rememberRequest
  split
  · exact .pure
  · exact .bind .read fun s => .bind .raiseIf fun _ => .bind .orRaise fun _ => keeps_write fun _ => rfl

variable {check : Check} {sha256 : String → String}

theorem submit_keeps {freshId : String} :
    Keeps JobStore.Constrained (submit sha256 q freshId check) := by
  refine .bind .ofExcept fun raw => .bind .ofExcept fun _ => .bind previous_keeps fun found => ?_
  split
  · exact .pure
  · exact .bind obtainJob_keeps fun _ => .bind rememberRequest_keeps fun _ => .bind addCommitGuard_keeps fun _ =>
      owned_keeps

variable {jobId token now : String}

theorem claim_keeps {revision : ℕ} :
    Keeps JobStore.Constrained (claim jobId revision token now check) := by
  refine .bind .ofExcept fun _ => .bind updateJobs_keeps fun n => ?_
  split
  · exact .pure
  · exact .bind addCommitGuard_keeps fun _ => .bind .read fun _ => .pure

theorem finish_keeps {status : JobStatus} {summary : Json} {error : Option String}
    {check : Option Check} : Keeps JobStore.Constrained (finish jobId token status summary error now check) := by
  have hcall : Keeps JobStore.Constrained (callCheck check) := by
    cases check with
    | none => exact .pure
    | some check => exact .ofExcept
  have hfence : Keeps JobStore.Constrained (fenceCheck check) := by
    cases check with
    | none => exact .pure
    | some check => exact addCommitGuard_keeps
  exact .bind .ofExcept fun _ => .bind hcall fun _ => .bind .read fun _ => .bind .ofExcept fun _ =>
    .bind updateJobs_keeps fun _ => hfence

theorem change_keeps {c : Change} : Keeps JobStore.Constrained (change c check) := by
  refine .bind .ofExcept fun _ => .bind owned_keeps fun row => .bind .raiseIf fun _ => .bind ?_ fun _ =>
    .bind addCommitGuard_keeps fun _ => owned_keeps
  unfold Change.apply
  split
  · exact .bind .raiseIf fun _ => .bind .read fun _ => .bind .raiseIf fun _ => .bind .raiseIf fun _ =>
      .bind (keeps_write fun _ => rfl) fun _ => .bind updateJobs_keeps fun _ => .pure
  split
  · exact .bind updateJobs_keeps fun _ => .pure
  · exact .pure

theorem body_keeps (a : JobAction) : Keeps JobStore.Constrained (a.body sha256) := by
  cases a with
  | recover now => exact .bind updateJobs_keeps fun _ => .pure
  | submit q freshId check => exact .bind submit_keeps fun _ => .pure
  | rejectQueued jobId code now => exact .bind updateJobs_keeps fun _ => .pure
  | claim jobId revision token now check => exact .bind claim_keeps fun _ => .pure
  | update jobId token progress checkpoint now check =>
    exact .bind .ofExcept fun _ => .bind .ofExcept fun _ => .bind .ofExcept fun _ =>
      .bind (.bind .read fun _ => .orRaise) fun _ => .bind .read fun _ => .bind .ofExcept fun _ =>
      .bind updateJobs_keeps fun _ => addCommitGuard_keeps
  | publish jobId token entries now check maxResultBytes =>
    refine .bind .ofExcept fun x => ?_
    exact .bind .ofExcept fun _ => .bind (.bind .read fun _ => .orRaise) fun _ => .bind .raiseIf fun _ =>
      .bind .read fun _ => .bind insertResults_keeps fun _ => .bind .ofExcept fun _ =>
      .bind updateJobs_keeps fun _ => addCommitGuard_keeps
  | finish jobId token status summary error now check => exact finish_keeps
  | change c check => exact .bind change_keeps fun _ => .pure
  | expire now => exact .bind deleteJobs_keeps fun _ => .pure
  | provision principal => exact keeps_write fun _ => rfl

theorem constrained_transaction {α : Type} {w : JobWork α} (hw : Keeps JobStore.Constrained w) (hs : s.Constrained) :
    (transaction w s).2.Constrained := by
  apply transaction_store hs
  intro a u hg
  have hkept := hw ⟨s, []⟩ hs
  rw [show w ⟨s, []⟩ = (.ok a, u) from hg] at hkept
  exact hkept

end GameLink.Jobs
