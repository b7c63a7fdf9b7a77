import GameLink.Jobs.Effects
import Mathlib.Data.List.Range

namespace GameLink.Jobs

open Foundation

structure Limits where
  maxQueued : ℕ
  maxActive : String → String → ℕ

def TokenAgrees (r : DurableJob) : Prop := r.runToken.isSome = true ↔ r.status = .running

structure Sound (limits : Limits) (s : JobStore) : Prop where
  activeInputs : (activeInputs s.jobs.rows).Nodup
  queued : s.activeCount ≤ limits.maxQueued
  handlers : ∀ owner module handler, s.handlerActive owner module handler ≤ limits.maxActive module handler
  tokens : ∀ r ∈ s.jobs.rows, TokenAgrees r
  sequences : ∀ jobId, s.sequences jobId = List.range (s.resultCount jobId)

structure Settles (r r' : DurableJob) : Prop where
  revision : r'.revision = r.revision + 1
  active : r'.active = true → r.active = true
  ownerHandler : r'.ownerHandler = r.ownerHandler
  token : TokenAgrees r → TokenAgrees r'

variable {limits : Limits} {s s' : JobStore}

theorem length_sequences (s : JobStore) (jobId : String) : (s.sequences jobId).length = s.resultCount jobId := by
  rw [JobStore.sequences, List.length_map, JobStore.resultCount, Table.matching, List.countP_eq_length_filter]

theorem sequences_eq_range (jobId : String) (n : ℕ) (h : s.sequences jobId = List.range n) :
    s.resultCount jobId = n := by
  rw [← length_sequences, h, List.length_range]

theorem nextSequence_eq (hs : Sound limits s) (jobId : String) : s.nextSequence jobId = s.resultCount jobId := by
  have hmax : ∀ n, ((List.range n).map (· + 1)).foldr max 0 = n := by
    intro n
    have hfold : ∀ (l : List ℕ) (m : ℕ), (l ++ [m]).foldr max 0 = max (l.foldr max 0) m := by
      intro l m
      induction l with
      | nil => simp
      | cons a l ih => rw [List.cons_append, List.foldr_cons, ih, List.foldr_cons, max_assoc]
    induction n with
    | zero => rfl
    | succ n ih =>
      rw [List.range_succ, List.map_append, List.map_singleton, hfold, ih]
      omega
  rw [JobStore.nextSequence, hs.sequences, hmax]

variable {f : DurableJob → DurableJob} {p : DurableJob → Bool}

theorem edited_rows (h : Edited p f s s') {r' : DurableJob}
    (hr : r' ∈ s'.jobs.rows) : ∃ r ∈ s.jobs.rows, r' = if p r then f r else r := by
  obtain ⟨hf, -, rfl⟩ := h
  obtain ⟨r, hmem, rfl⟩ := List.mem_map.mp hr
  exact ⟨r, hmem, rfl⟩

theorem Edited.sound (h : Edited p f s s')
    (hs : Sound limits s) (hp : ∀ r ∈ s.jobs.rows, p r = true → TokenAgrees r → Settles r (f r)) : Sound limits s' := by
  have htoken : ∀ r ∈ s'.jobs.rows, TokenAgrees r := by
    intro r' hr'
    obtain ⟨r, hr, rfl⟩ := edited_rows h hr'
    have ht := hs.tokens r hr
    by_cases hpr : p r
    · rw [if_pos hpr]
      exact (hp r hr hpr ht).token ht
    · rwa [if_neg hpr]
  obtain ⟨hf, hn, rfl⟩ := h
  refine ⟨hn, ?_, ?_, htoken, hs.sequences⟩
  · refine le_trans (s.jobs.matching_update_le p _ f hf ?_) hs.queued
    intro r hr hpr ha
    exact (hp r hr hpr (hs.tokens r hr)).active ha
  intro owner module handler
  refine le_trans (s.jobs.matching_update_le p _ f hf ?_) (hs.handlers owner module handler)
  intro r hr hpr ha
  have hset := hp r hr hpr (hs.tokens r hr)
  obtain ⟨ha, ho⟩ := Bool.and_eq_true_iff.mp ha
  rw [hset.ownerHandler] at ho
  exact Bool.and_eq_true_iff.mpr ⟨hset.active ha, ho⟩

theorem Created.sound {q : Submission} {freshId : String} (h : Created q freshId s s') (hs : Sound limits s)
    (hq : q.maxQueued ≤ limits.maxQueued) (ha : q.maxActive ≤ limits.maxActive q.module q.handler) :
    Sound limits s' := by
  obtain ⟨raw, digest, jobs, hactive, hqueued, hi, hn, rfl⟩ := h
  refine ⟨hn, ?_, ?_, ?_, hs.sequences⟩
  · have hcount := Table.matching_insert hi DurableJob.active
    have hle : (if DurableJob.active (q.newJob raw digest freshId) then 1 else 0) ≤ 1 := by split <;> omega
    unfold JobStore.activeCount Table.matching at *
    dsimp only
    omega
  · intro owner module handler
    have hcount := Table.matching_insert hi fun r => r.active && r.ownerHandler = (owner, module, handler)
    have hold := hs.handlers owner module handler
    unfold JobStore.handlerActive Table.matching at *
    dsimp only
    rw [hcount]
    split
    · rename_i hnew
      have hkey : (q.owner, q.module, q.handler) = (owner, module, handler) :=
        of_decide_eq_true (Bool.and_eq_true_iff.mp hnew).2
      obtain ⟨rfl, rfl, rfl⟩ : q.owner = owner ∧ q.module = module ∧ q.handler = handler := by
        simpa using hkey
      omega
    · omega
  · intro r hr
    rw [Table.rows_of_insert hi, List.mem_append, List.mem_singleton] at hr
    rcases hr with hr | rfl
    · exact hs.tokens r hr
    · exact iff_of_false (by simp [Submission.newJob]) (by simp [Submission.newJob])

theorem Sound.requests (hs : Sound limits s) (requests : Table JobRequestRow.key) :
    Sound limits { s with requests := requests } :=
  ⟨hs.activeInputs, hs.queued, hs.handlers, hs.tokens, hs.sequences⟩

variable {results : Table JobResultRow.key} {encoded : List Json}

theorem sequences_append {jobId : String} {start : ℕ}
    (h : results.rows = s.results.rows ++ encoded.zipIdx.map fun e => ⟨jobId, start + e.2, e.1⟩) (id : String) :
    ({ s with results := results } : JobStore).sequences id =
      s.sequences id ++ if id = jobId then List.range' start encoded.length else [] := by
  simp only [JobStore.sequences, h, List.filter_append, List.map_append]
  congr 1
  by_cases hid : id = jobId
  · subst hid
    have hall : ∀ r ∈ encoded.zipIdx.map (fun e => (⟨id, start + e.2, e.1⟩ : JobResultRow)),
        decide (r.jobId = id) = true := by
      intro r hr
      obtain ⟨e, -, rfl⟩ := List.mem_map.mp hr
      exact decide_eq_true rfl
    rw [if_pos rfl, List.filter_eq_self.mpr hall]
    have hsnd : encoded.zipIdx.map Prod.snd = List.range' 0 encoded.length := by
      rw [List.zipIdx_map_snd]
    rw [List.map_map]
    have hcomp : (JobResultRow.sequence ∘ fun e : Json × ℕ => (⟨id, start + e.2, e.1⟩ : JobResultRow)) =
        (start + ·) ∘ Prod.snd := rfl
    rw [hcomp, ← List.map_map, hsnd, List.map_add_range']
    simp
  · rw [if_neg hid, List.filter_eq_nil_iff.mpr]
    · rfl
    intro r hr
    obtain ⟨e, -, rfl⟩ := List.mem_map.mp hr
    simpa using fun h => hid h.symm

theorem Sound.published (hs : Sound limits s) {jobId : String}
    (h : results.rows = s.results.rows ++ encoded.zipIdx.map fun e => ⟨jobId, s.nextSequence jobId + e.2, e.1⟩) :
    Sound limits { s with results := results } := by
  refine ⟨hs.activeInputs, hs.queued, hs.handlers, hs.tokens, ?_⟩
  intro id
  have happ := sequences_append h id
  rw [nextSequence_eq hs, hs.sequences] at happ
  by_cases hid : id = jobId
  · subst hid
    have hjoin := @List.range'_append_1 0 (s.resultCount id) encoded.length
    rw [Nat.zero_add] at hjoin
    rw [if_pos rfl, List.range_eq_range', hjoin, ← List.range_eq_range'] at happ
    rw [happ, sequences_eq_range _ _ happ]
  · rw [if_neg hid, List.append_nil] at happ
    rw [happ, sequences_eq_range _ _ happ]

theorem sequences_delete (q : String → Bool) (id : String) :
    ({ s with results := s.results.delete fun r => q r.jobId } : JobStore).sequences id =
      if q id then [] else s.sequences id := by
  simp only [JobStore.sequences, Table.delete, List.filter_filter]
  by_cases hq : q id
  · rw [if_pos hq, List.map_eq_nil_iff, List.filter_eq_nil_iff]
    rintro r - h
    obtain ⟨hid, hn⟩ := Bool.and_eq_true_iff.mp h
    rw [of_decide_eq_true hid] at hn
    simp [hq] at hn
  rw [if_neg hq]
  congr 1
  refine List.filter_congr fun r _ => ?_
  by_cases hid : r.jobId = id
  · simp [hid, hq]
  · simp [hid]

theorem Sound.deleteResults (hs : Sound limits s) (q : String → Bool) :
    Sound limits { s with results := s.results.delete fun r => q r.jobId } := by
  refine ⟨hs.activeInputs, hs.queued, hs.handlers, hs.tokens, ?_⟩
  intro id
  have hdel := sequences_delete (s := s) q id
  by_cases hq : q id
  · rw [if_pos hq] at hdel
    rw [hdel, sequences_eq_range id 0 hdel]
    rfl
  · rw [if_neg hq, hs.sequences] at hdel
    rw [hdel, sequences_eq_range id _ hdel]

theorem Sound.deleteJobs (hs : Sound limits s) (p : DurableJob → Bool) :
    Sound limits { s with jobs := s.jobs.delete p } := by
  refine ⟨?_, ?_, ?_, ?_, hs.sequences⟩
  · exact hs.activeInputs.sublist ((List.filter_sublist.filter _).map _)
  · exact le_trans (s.jobs.matching_delete_le p _) hs.queued
  · exact fun owner module handler => le_trans (s.jobs.matching_delete_le p _) (hs.handlers owner module handler)
  · exact fun r hr => hs.tokens r (List.mem_of_mem_filter hr)

theorem Retried.sound {c : Change} (h : Retried c s s') (hs : Sound limits s) (hq : c.maxQueued ≤ limits.maxQueued)
    (ha : ∀ row, s.jobs.get c.jobId = some row → c.maxActive ≤ limits.maxActive row.moduleId row.handlerId) :
    Sound limits s' := by
  obtain ⟨row, hrow, hinactive, hactive, hqueued, -, hf, hn, rfl⟩ := h
  have hle := ha row hrow
  have hres := (hs.deleteResults fun id => decide (id = c.jobId)).sequences
  refine ⟨hn, ?_, ?_, ?_, hres⟩
  · have hcount := s.jobs.matching_update_le_succ c.jobId DurableJob.active _ hf
    unfold JobStore.activeCount Table.matching at *
    dsimp only at *
    omega
  · intro owner module handler
    by_cases hkey : row.ownerHandler = (owner, module, handler)
    · obtain ⟨rfl, rfl, rfl⟩ : row.ownerId = owner ∧ row.moduleId = module ∧ row.handlerId = handler := by
        simpa [DurableJob.ownerHandler] using hkey
      have hcount := s.jobs.matching_update_le_succ c.jobId
        (fun r => r.active && r.ownerHandler = (row.ownerId, row.moduleId, row.handlerId)) _ hf
      unfold JobStore.handlerActive Table.matching at *
      dsimp only at *
      omega
    · refine le_trans (s.jobs.matching_update_le _ _ _ hf ?_) (hs.handlers owner module handler)
      intro r hr hp hact
      have hr' : r = row := s.jobs.eq_of_key_eq hr (Table.mem_of_get hrow)
        ((of_decide_eq_true hp).trans (Table.key_of_get hrow).symm)
      subst hr'
      exact absurd (of_decide_eq_true (Bool.and_eq_true_iff.mp hact).2) hkey
  · intro r' hr'
    obtain ⟨r, hr, rfl⟩ := List.mem_map.mp hr'
    split
    · exact iff_of_false (by simp) (by simp)
    · exact hs.tokens r hr

end GameLink.Jobs
