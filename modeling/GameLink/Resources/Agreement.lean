import GameLink.Resources.Registration

namespace GameLink.Resources.Registration

open Foundation Contracts

def Files.Covered (f : Files) (named : Path → Prop) : Prop := ∀ p, f.final p ≠ none → named p ∨ f.Found p

section Files

variable {f : Files} {named : Path → Prop} {i : ℕ} {p : Path}

theorem Files.Covered.mono {named' : Path → Prop} (h : f.Covered named) (hn : ∀ p, named p → named' p) : f.Covered named' := by
  intro p hp
  obtain hnamed | hfound := h p hp
  · exact Or.inl (hn p hnamed)
  · exact Or.inr hfound

theorem pending_covered (h : f.Covered named) :
    Files.Covered { f with pending := Function.update f.pending p true } named := by
  intro p' hp'
  obtain hnamed | hpending | horphan := h p' hp'
  · exact Or.inl hnamed
  · refine Or.inr (Or.inl ?_)
    change Function.update f.pending p true p' = true
    rw [Function.update_apply]
    split
    · rfl
    · exact hpending
  · exact Or.inr (Or.inr horphan)

variable {fault : Fault}

theorem commit_covered (h : f.Covered named) : (f.commit i p fault).1.Covered named := by
  unfold Files.commit
  split
  · exact h
  split
  · exact h
  split
  · split
    · exact h
    · exact h
  dsimp only
  split
  · exact pending_covered h
  intro p' hp'
  change Function.update f.final p _ p' ≠ none at hp'
  by_cases heq : p' = p
  · rw [heq]
    exact Or.inr (Or.inl (Function.update_self ..))
  · rw [Function.update_of_ne heq] at hp'
    exact pending_covered h p' hp'

theorem confirm_covered (h : f.Covered named) (hp : named p) : (f.confirm p).Covered named := by
  intro p' hp'
  by_cases heq : p' = p
  · rw [heq]
    exact Or.inl hp
  obtain hnamed | hpending | horphan := h p' hp'
  · exact Or.inl hnamed
  · refine Or.inr (Or.inl ?_)
    change Function.update f.pending p false p' = true
    rw [Function.update_of_ne heq]
    exact hpending
  · exact Or.inr (Or.inr horphan)

theorem markOrphan_covered (h : f.Covered named) : (f.markOrphan i p).Covered named := by
  unfold Files.markOrphan
  split
  · exact h
  split
  · intro p' hp'
    by_cases heq : p' = p
    · rw [heq]
      exact Or.inr (Or.inr (Function.update_self ..))
    obtain hnamed | hpending | horphan := h p' hp'
    · exact Or.inl hnamed
    · refine Or.inr (Or.inl ?_)
      change Function.update f.pending p false p' = true
      rw [Function.update_of_ne heq]
      exact hpending
    refine Or.inr (Or.inr ?_)
    change Function.update f.orphan p true p' = true
    rw [Function.update_of_ne heq]
    exact horphan
  · exact h

variable {d m : Bool}

theorem discardUncommitted_covered (h : f.Covered named) : (f.discardUncommitted i p d m).Covered named := by
  unfold Files.discardUncommitted
  split
  · exact h
  split
  · exact h
  · exact markOrphan_covered h

structure Files.Keeps (f f' : Files) (i : ℕ) : Prop where
  final : ∀ p content, f.final p = some content → f'.final p = some content
  temp : ∀ j, j ≠ i → f'.temp j = f.temp j

theorem Files.Keeps.refl : f.Keeps f i := ⟨fun _ _ h => h, fun _ _ => rfl⟩

theorem Files.Keeps.trans {f' f'' : Files} (h : f.Keeps f' i) (h' : f'.Keeps f'' i) : f.Keeps f'' i :=
  ⟨fun p content hp => h'.final p content (h.final p content hp), fun j hj => (h'.temp j hj).trans (h.temp j hj)⟩

theorem Files.Keeps.of_temp {temp : Option Content} : f.Keeps { f with temp := Function.update f.temp i temp } i :=
  ⟨fun _ _ h => h, fun _ hj => Function.update_of_ne hj _ _⟩

theorem commit_keeps : f.Keeps (f.commit i p fault).1 i := by
  unfold Files.commit
  split
  · exact .refl
  split
  · exact .refl
  split
  · split
    · exact .of_temp
    · exact .refl
  rename_i hnone
  dsimp only
  split
  · exact ⟨fun _ _ h => h, fun _ _ => rfl⟩
  refine ⟨?_, fun j hj => Function.update_of_ne hj _ _⟩
  intro p' content hp'
  have hne : p' ≠ p := by
    rintro rfl
    rw [hnone] at hp'
    cases hp'
  exact (Function.update_of_ne hne _ _).trans hp'

theorem markOrphan_keeps : f.Keeps (f.markOrphan i p) i := by
  unfold Files.markOrphan
  split
  · exact ⟨fun _ _ h => h, fun _ _ => rfl⟩
  split
  · exact ⟨fun _ _ h => h, fun _ _ => rfl⟩
  · exact .refl

theorem discardUncommitted_keeps : f.Keeps (f.discardUncommitted i p d m) i := by
  unfold Files.discardUncommitted
  split
  · exact .of_temp
  split
  · exact .refl
  · exact markOrphan_keeps

variable {content : Content}

theorem commit_result (fault : Fault) (htemp : f.temp i = some content) :
    ((f.commit i p fault).2 = true ∧ (f.commit i p fault).1.final p = some content) ∨
    ((f.commit i p fault).2 = false ∧ (f.commit i p fault).1.temp i = some content) := by
  unfold Files.commit
  rw [htemp]
  dsimp only
  split
  · exact Or.inr ⟨rfl, htemp⟩
  split
  · rename_i old hold
    split
    · rename_i heq
      rw [heq] at hold
      exact Or.inl ⟨rfl, hold⟩
    · exact Or.inr ⟨rfl, htemp⟩
  split
  · exact Or.inr ⟨rfl, htemp⟩
  · exact Or.inl ⟨rfl, Function.update_self ..⟩

theorem commit_orphan {f : Files} {p : Path} : (f.commit i p fault).1.orphan = f.orphan := by
  unfold Files.commit
  split
  · rfl
  split
  · rfl
  split
  · split
    · rfl
    · rfl
  dsimp only
  split
  · rfl
  · rfl

theorem discardUncommitted_orphan {f : Files} {p : Path} (htemp : f.temp i = some content) :
    (f.discardUncommitted i p d m).orphan = f.orphan := by
  unfold Files.discardUncommitted
  split
  · rfl
  split
  · rfl
  unfold Files.markOrphan
  rw [htemp]
  rfl

end Files

theorem setCall_self {w : World} {i : ℕ} {call : Call} : (w.setCall i call).calls i = call := Function.update_self ..

section

variable [ContentHashing]

def Holds (w : World) (i : ℕ) : Call → Prop
  | .staged r => w.files.temp i = some r.content
  | .entering r => w.files.temp i = some r.content
  | .committed r => w.files.final (path r.ref) = some r.content
  | .registering r => w.files.final (path r.ref) = some r.content ∧ (∀ row, w.jobs i = .insert row → row = r.row) ∧
    (w.jobs i = .inserted true → w.rows r.ref = some r.row)
  | .confirmed r => w.files.final (path r.ref) = some r.content ∧ w.rows r.ref = some r.row
  | .succeeded r => w.files.final (path r.ref) = some r.content ∧ w.rows r.ref = some r.row
  | _ => True

structure Sound (w : World) : Prop where
  covered : w.files.Covered w.Named
  holds : ∀ i, Holds w i (w.calls i)

section Steps

variable {w w' : World} {i : ℕ} {r : Request} {c : Cleanup} {call : Call}

structure Moves (w w' : World) (i : ℕ) : Prop where
  files : w.files.Keeps w'.files i
  rows : ∀ ref row, w.rows ref = some row → w'.rows ref = some row
  calls : ∀ j, j ≠ i → w'.calls j = w.calls j
  jobs : ∀ j, j ≠ i → w'.jobs j = w.jobs j

theorem Moves.named (h : Moves w w' i) (p : Path) (hp : w.Named p) : w'.Named p := by
  obtain ⟨ref, row, hpath, hrow⟩ := hp
  exact ⟨ref, row, hpath, h.rows ref row hrow⟩

theorem Moves.holds (h : Moves w w' i) {j : ℕ} (hj : j ≠ i) (hold : Holds w j call) : Holds w' j call := by
  cases call with
  | staged r => exact (h.files.temp j hj).trans hold
  | entering r => exact (h.files.temp j hj).trans hold
  | committed r => exact h.files.final _ _ hold
  | registering r =>
    obtain ⟨hfinal, hqueued, hinserted⟩ := hold
    refine ⟨h.files.final _ _ hfinal, ?_, ?_⟩
    · rw [h.jobs j hj]
      exact hqueued
    · rw [h.jobs j hj]
      exact fun hjob => h.rows _ _ (hinserted hjob)
  | confirmed r => exact ⟨h.files.final _ _ hold.1, h.rows _ _ hold.2⟩
  | succeeded r => exact ⟨h.files.final _ _ hold.1, h.rows _ _ hold.2⟩
  | _ => trivial

section

variable (h : Sound w)
include h

theorem Sound.move (hm : Moves w w' i) (hcovered : w'.files.Covered w.Named) (hi : Holds w' i (w'.calls i)) :
    Sound w' := by
  refine ⟨hcovered.mono hm.named, ?_⟩
  intro j
  by_cases hj : j = i
  · rw [hj]
    exact hi
  · rw [hm.calls j hj]
    exact hm.holds hj (h.holds j)

theorem Sound.setCall {f : Files} (hf : w.files.Keeps f i) (hcovered : f.Covered w.Named)
    (hi : Holds { w with files := f } i call) : Sound ({ w with files := f }.setCall i call) := by
  refine h.move (i := i) ⟨hf, fun _ _ hrow => hrow, fun j hj => Function.update_of_ne hj _ _, fun _ _ => rfl⟩ hcovered ?_
  rw [setCall_self]
  cases call with
  | _ => exact hi

theorem Sound.goOn (hi : Holds w i call) : Sound (w.setCall i call) := h.setCall .refl h.covered hi

theorem Sound.cleanUp : Sound (w.cleanUp i r c) :=
  h.setCall discardUncommitted_keeps (discardUncommitted_covered h.covered) trivial

theorem Sound.recover : Sound (w.recover i r c) := by
  unfold World.recover
  split
  · have hlookup : Sound (w.setLookup i (.queued r.ref)) := ⟨h.covered, h.holds⟩
    exact hlookup.goOn trivial
  · exact h.goOn trivial

theorem Sound.stage {staging : Staging} : Sound (w.stage i r staging) := by
  unfold World.stage
  split
  · exact h.setCall .of_temp h.covered trivial
  split
  · refine h.setCall .of_temp h.covered ?_
    exact Function.update_self ..
  rename_i old hold
  split
  · rename_i heq
    rw [heq] at hold
    exact h.goOn hold
  · exact h.goOn trivial

theorem Sound.commit (hi : w.calls i = .entering r) {fault : Fault} : Sound (w.commit i r fault c) := by
  have htemp : w.files.temp i = some r.content := by
    have hholds := h.holds i
    rw [hi] at hholds
    exact hholds
  have hkeeps : w.files.Keeps (w.files.commit i (path r.ref) fault).1 i := commit_keeps
  have hcovered : (w.files.commit i (path r.ref) fault).1.Covered w.Named := commit_covered h.covered
  unfold World.commit
  split
  · rename_i files heq
    have hresult := commit_result (p := path r.ref) fault htemp
    rw [heq] at hresult hkeeps hcovered
    obtain ⟨-, hfinal⟩ | ⟨hfalse, -⟩ := hresult
    · exact h.setCall hkeeps hcovered hfinal
    · cases hfalse
  · rename_i files heq
    rw [heq] at hkeeps hcovered
    exact h.setCall (hkeeps.trans discardUncommitted_keeps) (discardUncommitted_covered hcovered) trivial

theorem Sound.enter (hi : w.calls i = .staged r) : Sound (w.enter i r c) := by
  unfold World.enter
  split
  · apply h.goOn
    have hholds := h.holds i
    rw [hi] at hholds
    exact hholds
  · exact h.cleanUp

theorem Sound.submit (hi : w.calls i = .committed r) :
    Sound ((w.setJob i (.insert r.row)).setCall i (.registering r)) := by
  have hfinal := h.holds i
  rw [hi] at hfinal
  have hself : Function.update w.jobs i (.insert r.row) i = .insert r.row := Function.update_self ..
  refine h.move (i := i) ⟨.refl, fun _ _ hrow => hrow, fun j hj => Function.update_of_ne hj _ _,
    fun j hj => Function.update_of_ne hj _ _⟩ h.covered ?_
  rw [setCall_self]
  refine ⟨hfinal, ?_, ?_⟩
  · intro row hrow
    have hrow : Function.update w.jobs i (.insert r.row) i = .insert row := hrow
    rw [hself] at hrow
    exact (Job.insert.inj hrow).symm
  intro hjob
  have hjob : Function.update w.jobs i (.insert r.row) i = .inserted true := hjob
  rw [hself] at hjob
  cases hjob

theorem Sound.answered {rows : Ref → Option AssetRow} {row : AssetRow} {ok : Bool} (hqueued : w.jobs i = .insert row)
    (hrows : ∀ ref row, w.rows ref = some row → rows ref = some row) (hok : ok = true → rows row.ref = some row) :
    Sound ({ w with rows := rows }.setJob i (.inserted ok)) := by
  have hself : Function.update w.jobs i (.inserted ok) i = .inserted ok := Function.update_self ..
  refine h.move (i := i) ⟨.refl, hrows, fun _ _ => rfl, fun j hj => Function.update_of_ne hj _ _⟩ h.covered ?_
  have hholds := h.holds i
  change Holds _ i (w.calls i)
  cases hcall : w.calls i with
  | registering r =>
    rw [hcall] at hholds
    obtain ⟨hfinal, hrow, -⟩ := hholds
    refine ⟨hfinal, ?_, ?_⟩
    · intro row' hrow'
      have hrow' : Function.update w.jobs i (.inserted ok) i = .insert row' := hrow'
      rw [hself] at hrow'
      cases hrow'
    intro hjob
    have hjob : Function.update w.jobs i (.inserted ok) i = .inserted true := hjob
    rw [hself] at hjob
    have hinserted := hok (Job.inserted.inj hjob)
    rw [hrow row hqueued] at hinserted
    exact hinserted
  | confirmed r =>
    rw [hcall] at hholds
    exact ⟨hholds.1, hrows _ _ hholds.2⟩
  | succeeded r =>
    rw [hcall] at hholds
    exact ⟨hholds.1, hrows _ _ hholds.2⟩
  | staged r =>
    rw [hcall] at hholds
    exact hholds
  | entering r =>
    rw [hcall] at hholds
    exact hholds
  | committed r =>
    rw [hcall] at hholds
    exact hholds
  | _ => trivial

theorem Sound.insert {ok : Bool} : Sound (w.insert i ok) := by
  unfold World.insert
  split
  · rename_i row hqueued
    split
    · rename_i hfree
      refine h.answered hqueued ?_ fun _ => Function.update_self ..
      intro ref row' hrow'
      have hne : ref ≠ row.ref := by
        rintro rfl
        rw [hfree.2] at hrow'
        cases hrow'
      exact (Function.update_of_ne hne _ _).trans hrow'
    · exact h.answered hqueued (fun _ _ hrow => hrow) (by rintro ⟨⟩)
  · exact h

theorem Sound.lookup : Sound (w.lookup i) := by
  unfold World.lookup
  split
  · exact ⟨h.covered, h.holds⟩
  · exact h

theorem Sound.recovered {row : Option AssetRow} : Sound (w.recovered i r row c) := by
  unfold World.recovered
  split
  · exact h.goOn trivial
  split
  · exact h.goOn trivial
  · exact h.setCall markOrphan_keeps (markOrphan_covered h.covered) trivial

theorem Sound.resume {confirmRaises : Bool} : Sound (w.resume i confirmRaises c) := by
  unfold World.resume
  split
  · rename_i r hcall hjob
    have hholds := h.holds i
    rw [hcall] at hholds
    obtain ⟨hfinal, -, hinserted⟩ := hholds
    have hrow := hinserted hjob
    split
    · exact h.recover
    · have hkeeps : w.files.Keeps (w.files.confirm (path r.ref)) i := ⟨fun _ _ hp => hp, fun _ _ => rfl⟩
      exact h.setCall hkeeps (confirm_covered h.covered ⟨r.ref, r.row, rfl, hrow⟩) ⟨hfinal, hrow⟩
  · exact h.recover
  · exact h.recovered
  · exact h

theorem Sound.raised : Sound (w.raised i c) := by
  unfold World.raised
  split
  · exact h.goOn trivial
  · exact h.cleanUp
  · exact h.cleanUp
  · exact h.recover
  · exact h.recover
  · exact h.recover
  · exact h.goOn trivial
  · exact h

end

theorem torn_covered {named : Path → Prop} (h : w.files.Covered named) (t : Torn) : (w.torn t).Covered named := by
  unfold World.torn
  split
  · exact h
  · split
    · exact h
    · exact h
  split
  · exact commit_covered h
  · exact h

theorem torn_final (t : Torn) {p : Path} {content : Content} (h : w.files.final p = some content) :
    (w.torn t).final p = some content := by
  unfold World.torn
  split
  · exact h
  · split
    · exact h
    · exact h
  split
  · exact (commit_keeps (i := ‹ℕ›)).final p content h
  · exact h

theorem Sound.crash (h : Sound w) (t : Torn) : Sound (w.crash t) := by
  refine ⟨torn_covered h.covered t, ?_⟩
  intro i
  have hholds := h.holds i
  change Holds _ i (World.lost (w.calls i))
  cases hcall : w.calls i with
  | succeeded r =>
    rw [hcall] at hholds
    exact ⟨torn_final t hholds.1, hholds.2⟩
  | _ => trivial

theorem Sound.next (h : Sound w) (a : Action) : Sound (w.next a) := by
  cases a with
  | begin i r =>
    change Sound (if w.calls i = .idle then w.setCall i (.admitted r) else w)
    split
    · exact h.goOn trivial
    · exact h
  | stage i staging =>
    unfold World.next
    dsimp only
    split
    · exact h.stage
    · exact h
  | enter i c =>
    unfold World.next
    dsimp only
    split
    · rename_i hi
      exact h.enter hi
    · exact h
  | commit i fault c =>
    unfold World.next
    dsimp only
    split
    · rename_i hi
      exact h.commit hi
    · exact h
  | submit i =>
    unfold World.next
    dsimp only
    split
    · rename_i hi
      exact h.submit hi
    · exact h
  | insert i ok => exact h.insert
  | lookup i => exact h.lookup
  | resume i confirmRaises c => exact h.resume
  | accept i =>
    unfold World.next
    dsimp only
    split
    · rename_i hi
      apply h.goOn
      have hholds := h.holds i
      rw [hi] at hholds
      exact hholds
    · exact h
  | raised i c => exact h.raised
  | crash t => exact h.crash t

theorem Sound.initial (h : w.Initial) : Sound w := by
  constructor
  · intro p hp
    exact absurd (h.final p) hp
  intro i
  rw [h.calls]
  trivial

end Steps

section Markers

variable {w w' : World} {i : ℕ} {r : Request} {c : Cleanup}

def World.Unmarked (w : World) : Prop := ∀ ref row, w.rows ref = some row → w.files.orphan (path ref) = false

structure Still (w w' : World) : Prop where
  rows : w'.rows = w.rows
  orphan : w'.files.orphan = w.files.orphan

theorem Still.unmarked (hs : Still w w') (h : w.Unmarked) : w'.Unmarked := by
  intro ref row hrow
  rw [hs.rows] at hrow
  rw [hs.orphan]
  exact h ref row hrow

omit [ContentHashing] in
theorem Still.recover : Still w (w.recover i r c) := by
  unfold World.recover
  split
  · exact ⟨rfl, rfl⟩
  · exact ⟨rfl, rfl⟩

theorem Still.cleanUp {content : Content} (htemp : w.files.temp i = some content) : Still w (w.cleanUp i r c) :=
  ⟨rfl, discardUncommitted_orphan htemp⟩

omit [ContentHashing] in
theorem Still.stage {staging : Staging} : Still w (w.stage i r staging) := by
  unfold World.stage
  split
  · exact ⟨rfl, rfl⟩
  split
  · exact ⟨rfl, rfl⟩
  split
  · exact ⟨rfl, rfl⟩
  · exact ⟨rfl, rfl⟩

theorem Still.commit {content : Content} {fault : Fault} (htemp : w.files.temp i = some content) :
    Still w (w.commit i r fault c) := by
  have horphan : (w.files.commit i (path r.ref) fault).1.orphan = w.files.orphan := commit_orphan
  have hresult := commit_result (p := path r.ref) fault htemp
  unfold World.commit
  split
  · rename_i files heq
    rw [heq] at horphan
    exact ⟨rfl, horphan⟩
  rename_i files heq
  rw [heq] at horphan hresult
  obtain ⟨hfalse, -⟩ | ⟨-, htemp'⟩ := hresult
  · cases hfalse
  · exact ⟨rfl, (discardUncommitted_orphan htemp').trans horphan⟩

theorem unmarked_insert (h : w.Unmarked) {ok : Bool} (hcareful : w.Careful (.insert i ok)) : (w.insert i ok).Unmarked := by
  unfold World.insert
  split
  · rename_i row hqueued
    split
    · rename_i hfree
      intro ref row' hrow'
      by_cases heq : ref = row.ref
      · rw [heq]
        exact hcareful row hqueued hfree.1 hfree.2
      have hrow' : Function.update w.rows row.ref (some row) ref = some row' := hrow'
      rw [Function.update_of_ne heq] at hrow'
      exact h ref row' hrow'
    · exact h
  · exact h

theorem unmarked_recovered (h : w.Unmarked) {row : Option AssetRow} (hcareful : row = none → ¬ w.Named (path r.ref)) :
    (w.recovered i r row c).Unmarked := by
  unfold World.recovered
  split
  · exact h
  split
  · exact h
  intro ref row' hrow'
  have hne : path ref ≠ path r.ref := fun heq => hcareful rfl ⟨ref, row', heq, hrow'⟩
  have horphan := h ref row' hrow'
  change (w.files.markOrphan i (path r.ref)).orphan (path ref) = false
  unfold Files.markOrphan
  split
  · exact horphan
  split
  · exact (Function.update_of_ne hne _ _).trans horphan
  · exact horphan

theorem unmarked_resume (h : w.Unmarked) {confirmRaises : Bool} (hcareful : w.Careful (.resume i confirmRaises c)) :
    (w.resume i confirmRaises c).Unmarked := by
  unfold World.resume
  split
  · split
    · exact Still.recover.unmarked h
    · exact Still.unmarked ⟨rfl, rfl⟩ h
  · exact Still.recover.unmarked h
  · rename_i r row hcall hlookup
    apply unmarked_recovered h
    intro hnone
    rw [hnone] at hlookup
    exact hcareful r hcall hlookup
  · exact h

theorem Still.raised (h : Sound w) : Still w (w.raised i c) := by
  have hholds := h.holds i
  unfold World.raised
  split
  · exact ⟨rfl, rfl⟩
  · rename_i hcall
    rw [hcall] at hholds
    exact .cleanUp hholds
  · rename_i hcall
    rw [hcall] at hholds
    exact .cleanUp hholds
  · exact .recover
  · exact .recover
  · exact .recover
  · exact ⟨rfl, rfl⟩
  · exact ⟨rfl, rfl⟩

theorem Still.crash (t : Torn) : Still w (w.crash t) := by
  refine ⟨rfl, ?_⟩
  change (w.torn t).orphan = w.files.orphan
  unfold World.torn
  split
  · rfl
  · split
    · rfl
    · rfl
  split
  · exact commit_orphan
  · rfl

theorem unmarked_next (hs : Sound w) (h : w.Unmarked) {a : Action} (hcareful : w.Careful a) : (w.next a).Unmarked := by
  cases a with
  | begin i r =>
    change World.Unmarked (if w.calls i = .idle then w.setCall i (.admitted r) else w)
    split
    · exact h
    · exact h
  | stage i staging =>
    unfold World.next
    dsimp only
    split
    · exact Still.stage.unmarked h
    · exact h
  | enter i c =>
    unfold World.next
    dsimp only
    split
    · rename_i hi
      have hholds := hs.holds i
      rw [hi] at hholds
      unfold World.enter
      split
      · exact h
      · exact (Still.cleanUp hholds).unmarked h
    · exact h
  | commit i fault c =>
    unfold World.next
    dsimp only
    split
    · rename_i hi
      have hholds := hs.holds i
      rw [hi] at hholds
      exact (Still.commit hholds).unmarked h
    · exact h
  | submit i =>
    unfold World.next
    dsimp only
    split
    · exact h
    · exact h
  | insert i ok => exact unmarked_insert h hcareful
  | lookup i =>
    change World.Unmarked (w.lookup i)
    unfold World.lookup
    split
    · exact h
    · exact h
  | resume i confirmRaises c => exact unmarked_resume h hcareful
  | accept i =>
    unfold World.next
    dsimp only
    split
    · exact h
    · exact h
  | raised i c => exact (Still.raised hs).unmarked h
  | crash t => exact (Still.crash t).unmarked h

end Markers

section Runs

variable {w : World}

def World.Recoverable (w : World) : Prop := w.files.Covered w.Named

def World.Whole (w : World) : Prop :=
  ∀ i r, w.calls i = .succeeded r → w.rows r.ref = some r.row ∧ w.files.final (path r.ref) = some r.content

theorem sound_of_reachable (h : registrations.Reachable w) : Sound w :=
  h.invariant (P := Sound) (fun _ => Sound.initial) fun _ a hs _ => hs.next a

theorem unmarked_of_careful (h : carefulRegistrations.Reachable w) : Sound w ∧ w.Unmarked := by
  refine h.invariant (P := fun w => Sound w ∧ w.Unmarked) ?_ fun _ a hs ha => ⟨hs.1.next a, unmarked_next hs.1 hs.2 ha⟩
  intro s hs
  refine ⟨Sound.initial hs, ?_⟩
  intro ref row hrow
  rw [hs.rows] at hrow
  cases hrow

theorem registered_files_agree (h : registrations.Reachable w) :
    w.Recoverable ∧ w.Whole ∧ (carefulRegistrations.Reachable w → w.Unmarked) := by
  have hs := sound_of_reachable h
  refine ⟨hs.covered, ?_, fun hcareful => (unmarked_of_careful hcareful).2⟩
  intro i r hi
  have hholds := hs.holds i
  rw [hi] at hholds
  exact ⟨hholds.2, hholds.1⟩

end Runs

end

namespace Sample

@[reducible] def hashing : ContentHashing := ⟨fun _ => "0f"⟩

def ref : Ref := ⟨⟨.public, none, none⟩, "asset_0f"⟩

def request : Request := ⟨ref, "image/png", [137, 80], none⟩

def start : World := ⟨⟨fun _ => none, fun _ => false, fun _ => false, fun _ => none, fun _ => false⟩, fun _ => none,
  fun _ => .idle, fun _ => .none, fun _ => .none⟩

theorem start_initial : start.Initial :=
  ⟨fun _ => rfl, fun _ => rfl, fun _ => rfl, fun _ => rfl, fun _ => rfl, fun _ => rfl, fun _ => rfl⟩

def calm : Cleanup := ⟨false, false, true⟩

def committed (i : ℕ) : List Action := [.begin i request, .stage i .done, .enter i calm, .commit i .none calm]

def registered (i : ℕ) : List Action := committed i ++ [.submit i, .insert i true, .resume i false calm, .accept i]

def relabelled (i : ℕ) : List Action := committed i ++ [.raised i calm, .lookup i, .resume i false calm]

def permits (w : World) : Action → Bool
  | .insert i _ => match w.jobs i with
    | .insert row => !w.files.orphan (@path hashing row.ref)
    | _ => true
  | .resume i _ _ => match w.calls i with
    | .recovering _ => false
    | _ => true
  | _ => true

def permitted : System.CheckedRun (@World.next hashing) permits start := ⟨registered 0, by decide +kernel⟩

theorem careful_of_permits {w : World} {a : Action} (h : permits w a = true) : @World.Careful hashing w a := by
  cases a with
  | insert i ok =>
    intro row hjob _ _
    change (match w.jobs i with
      | .insert row => !w.files.orphan (@path hashing row.ref)
      | _ => true) = true at h
    rw [hjob, Bool.not_eq_true'] at h
    exact h
  | resume i confirmRaises c =>
    intro r hcall _
    change (match w.calls i with
      | .recovering _ => false
      | _ => true) = true at h
    rw [hcall] at h
    cases h
  | _ => trivial

theorem reachable (as : List Action) : (@registrations hashing).Reachable (as.foldl (@World.next hashing) start) :=
  ⟨start, as, start_initial, .of_always (S := @registrations hashing) (fun _ _ _ => trivial) start⟩

end Sample

theorem registered_files_agree_sample : ∃ w : World, w.calls 0 = .succeeded Sample.request ∧
    @World.Recoverable Sample.hashing w ∧ @World.Whole Sample.hashing w ∧ @World.Unmarked Sample.hashing w := by
  have hcareful : (@carefulRegistrations Sample.hashing).Reachable
      ((Sample.registered 0).foldl (@World.next Sample.hashing) Sample.start) := by
    refine ⟨Sample.start, Sample.registered 0, Sample.start_initial, ?_⟩
    exact System.Trace.of_checked (S := @carefulRegistrations Sample.hashing)
      (fun w a (h : Sample.permits w a = true) => Sample.careful_of_permits h) Sample.permitted.property
  have hproved := @registered_files_agree Sample.hashing _ (Sample.reachable (Sample.registered 0))
  refine ⟨_, ?_, hproved.1, hproved.2.1, hproved.2.2 hcareful⟩
  decide +kernel

/-- A first register fails after its commit and relabels the file; a second one succeeds, and the marker stays. -/
theorem registered_file_keeps_orphan : ∃ w : World, (@registrations Sample.hashing).Reachable w ∧
    w.calls 1 = .succeeded Sample.request ∧ w.rows Sample.ref = some Sample.request.row ∧
    w.files.orphan (@path Sample.hashing Sample.ref) = true := by
  refine ⟨_, Sample.reachable (Sample.relabelled 0 ++ Sample.registered 1), ?_, ?_, ?_⟩
  · decide +kernel
  · decide +kernel
  · decide +kernel

end GameLink.Resources.Registration
