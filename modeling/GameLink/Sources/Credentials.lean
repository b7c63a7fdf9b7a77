import GameLink.Foundation.Runs
import Mathlib.Data.List.Basic

namespace GameLink.Sources.Credentials

open Foundation

/-! The credential services of one `ModuleServicesFactory`. Lists are objects: a call that waits goes on with the
list it began with, whatever `_credential_services` names by then. -/

variable {μ : Type} [DecidableEq μ]

structure Entry (μ : Type) where
  ownerId : String
  manifest : μ
  service : ℕ
  deriving DecidableEq

def Entry.belongs (moduleId : String) (manifest : μ) (e : Entry μ) : Bool :=
  decide (e.ownerId = moduleId) && decide (e.manifest = manifest)

/-- `retire_module_credentials` in its loop over the list object `source`. What was listed when it began, what it
closed, and whether `close_credentials` ran beside it are history. -/
structure Retire (μ : Type) where
  moduleId : String
  manifest : μ
  source : ℕ
  index : ℕ
  retained : List (Entry μ)
  listed : List (Entry μ)
  closed : List ℕ
  disturbed : Bool

/-- `closers` are the services that each running `close_credentials` has still to close. The last four fields are
history. -/
structure World (μ : Type) where
  lists : ℕ → List (Entry μ)
  objects : ℕ
  current : ℕ
  servicesClosed : Bool
  http : String → Option μ
  retires : List (Retire μ)
  closers : List (List ℕ)
  constructed : List (Entry μ)
  called : List ℕ
  ended : List (Retire μ)
  returned : Bool

/-- How far `_build_module` comes, and whether some source has a `credential_ref`. -/
inductive Build where
  | refused
  | credentials (bound : Bool)
  | plain

namespace Retire

/-- The loop, up to the next service that it closes. -/
def scan : Retire μ → List (Entry μ) → Retire μ × Option ℕ
  | r, [] => (r, none)
  | r, e :: rest =>
    if e.belongs r.moduleId r.manifest then ({ r with index := r.index + 1, closed := r.closed ++ [e.service] }, some e.service)
    else scan { r with index := r.index + 1, retained := r.retained ++ [e] } rest

end Retire

namespace World

def iterate (w : World μ) (r : Retire μ) : World μ :=
  match r.scan ((w.lists r.source).drop r.index) with
  | (r, some service) => { w with retires := r :: w.retires, called := service :: w.called }
  | (r, none) =>
    { w with
      lists := Function.update w.lists w.objects r.retained
      objects := w.objects + 1
      current := w.objects
      http := if w.http r.moduleId = some r.manifest then Function.update w.http r.moduleId none else w.http
      ended := r :: w.ended }

def retire (w : World μ) (moduleId : String) (manifest : μ) : World μ :=
  w.iterate ⟨moduleId, manifest, w.current, 0, [], w.lists w.current, [], !w.closers.isEmpty⟩

def advance (w : World μ) : List ℕ → World μ
  | [] => { w with lists := Function.update w.lists w.current [], returned := true }
  | service :: rest => { w with closers := rest :: w.closers, called := service :: w.called }

def close (w : World μ) : World μ :=
  advance { w with servicesClosed := true, retires := w.retires.map fun r => { r with disturbed := true } }
    ((w.lists w.current).map Entry.service)

def constructs (w : World μ) (moduleId : String) (manifest : μ) : Build → Bool
  | .credentials _ => !w.servicesClosed && decide (w.http moduleId ≠ some manifest)
  | _ => false

def build (w : World μ) (moduleId : String) (manifest : μ) (b : Build) : World μ :=
  if w.constructs moduleId manifest b then
    let entry := ⟨moduleId, manifest, w.constructed.length⟩
    { w with
      lists := Function.update w.lists w.current (w.lists w.current ++ [entry])
      constructed := entry :: w.constructed
      http := match b with
        | .credentials true => Function.update w.http moduleId (some manifest)
        | _ => w.http }
  else
    match b with
    | .plain => if w.servicesClosed then w else { w with http := Function.update w.http moduleId (some manifest) }
    | _ => w

end World

/-- A position names a call that waits for a service to close; `abandon` raises there. -/
inductive Action (μ : Type) where
  | build (moduleId : String) (manifest : μ) (b : Build)
  | retire (moduleId : String) (manifest : μ)
  | resumeRetire (position : ℕ)
  | abandonRetire (position : ℕ)
  | close
  | resumeClose (position : ℕ)
  | abandonClose (position : ℕ)

def World.next (w : World μ) : Action μ → World μ
  | .build moduleId manifest b => w.build moduleId manifest b
  | .retire moduleId manifest => w.retire moduleId manifest
  | .resumeRetire i =>
    match w.retires[i]? with
    | some r => World.iterate { w with retires := w.retires.eraseIdx i } r
    | none => w
  | .abandonRetire i => { w with retires := w.retires.eraseIdx i }
  | .close => w.close
  | .resumeClose i =>
    match w.closers[i]? with
    | some services => World.advance { w with closers := w.closers.eraseIdx i } services
    | none => w
  | .abandonClose i => { w with closers := w.closers.eraseIdx i }

/-- A service is constructed only while every retirement that waits iterates the list of the factory, and none is of
the module and manifest of that service. -/
def World.calm (w : World μ) : Action μ → Bool
  | .build moduleId manifest b =>
    !w.constructs moduleId manifest b ||
      w.retires.all fun r => decide (r.source = w.current) && !Entry.belongs r.moduleId r.manifest ⟨moduleId, manifest, w.constructed.length⟩
  | _ => true

variable (μ) in
def factory : System (World μ) (Action μ) where
  start w := w = ⟨fun _ => [], 1, 0, false, fun _ => none, [], [], [], [], [], false⟩
  allowed _ _ := True
  next := World.next

variable (μ) in
def calmFactory : System (World μ) (Action μ) := { factory μ with allowed := fun w a => w.calm a = true }

namespace Retire

/-- What a retirement has taken from its list, and what that list still holds ahead of it. -/
structure Sound (w : World μ) (r : Retire μ) : Prop where
  source : r.source < w.objects
  inBounds : w.servicesClosed = false → r.index ≤ (w.lists r.source).length
  covers : ∀ e ∈ w.constructed, e.service ∈ w.called ∨ e ∈ r.retained ∨ e ∈ (w.lists r.source).drop r.index
  alone : r.disturbed = false → w.closers = []
  listed : r.disturbed = false → ∃ added, w.lists r.source = r.listed ++ added ∧
    ∀ e ∈ added, e.belongs r.moduleId r.manifest = false
  retained : r.disturbed = false →
    r.retained = ((w.lists r.source).take r.index).filter fun e => !e.belongs r.moduleId r.manifest
  closed : r.disturbed = false →
    r.closed = (((w.lists r.source).take r.index).filter (Entry.belongs r.moduleId r.manifest)).map Entry.service

structure Exact (r : Retire μ) : Prop where
  closed : r.closed = (r.listed.filter (Entry.belongs r.moduleId r.manifest)).map Entry.service
  kept : ∀ e ∈ r.listed, e.belongs r.moduleId r.manifest = false → e ∈ r.retained

variable {w : World μ} {r : Retire μ} {e : Entry μ} {rest : List (Entry μ)}

omit [DecidableEq μ] in
theorem take_next (hahead : (w.lists r.source).drop r.index = e :: rest) :
    r.index < (w.lists r.source).length ∧ (w.lists r.source).drop (r.index + 1) = rest ∧
      (w.lists r.source).take (r.index + 1) = (w.lists r.source).take r.index ++ [e] := by
  refine ⟨?_, ?_, ?_⟩
  · by_contra hle
    rw [List.drop_eq_nil_of_le (Nat.not_lt.mp hle)] at hahead
    cases hahead
  · rw [← List.drop_drop, hahead]
    rfl
  · rw [List.take_add_one, ← List.head?_drop, hahead]
    rfl

theorem Sound.keep {w' : World μ} (hr : r.Sound w) (hlists : w'.lists r.source = w.lists r.source)
    (hobjects : w.objects ≤ w'.objects) (hclosed : w'.servicesClosed = w.servicesClosed)
    (hconstructed : w'.constructed = w.constructed) (hcalled : ∀ s ∈ w.called, s ∈ w'.called)
    (hclosers : w.closers = [] → w'.closers = []) : r.Sound w' := by
  obtain ⟨hsource, hbounds, hcovers, halone, hlisted, hretained, hcl⟩ := hr
  rw [← hlists] at hbounds hcovers hlisted hretained hcl
  rw [← hclosed] at hbounds
  rw [← hconstructed] at hcovers
  exact ⟨Nat.lt_of_lt_of_le hsource hobjects, hbounds, fun e he => (hcovers e he).imp_left (hcalled _),
    fun hd => hclosers (halone hd), hlisted, hretained, hcl⟩

theorem Sound.passed (hr : r.Sound w) (hahead : (w.lists r.source).drop r.index = e :: rest)
    (hw : e.belongs r.moduleId r.manifest = false) :
    Sound w { r with index := r.index + 1, retained := r.retained ++ [e] } := by
  obtain ⟨hlt, hdrop, htake⟩ := take_next hahead
  refine ⟨hr.source, fun _ => hlt, ?_, hr.alone, hr.listed, ?_, ?_⟩
  · intro x hx
    rw [hdrop, List.mem_append, List.mem_singleton]
    rcases hr.covers x hx with hc | hc | hc
    · exact .inl hc
    · exact .inr (.inl (.inl hc))
    · rw [hahead] at hc
      exact .inr ((List.mem_cons.mp hc).imp .inr id)
  · intro hd
    simp only [htake, List.filter_append, ← hr.retained hd]
    simp [hw]
  · intro hd
    simp only [htake, List.filter_append, List.map_append, ← hr.closed hd]
    simp [hw]

theorem Sound.reached (hr : r.Sound w) (hahead : (w.lists r.source).drop r.index = e :: rest)
    (hw : e.belongs r.moduleId r.manifest = true) :
    Sound { w with called := e.service :: w.called }
      { r with index := r.index + 1, closed := r.closed ++ [e.service] } := by
  obtain ⟨hlt, hdrop, htake⟩ := take_next hahead
  refine ⟨hr.source, fun _ => hlt, ?_, hr.alone, hr.listed, ?_, ?_⟩
  · intro x hx
    rw [hdrop]
    rcases hr.covers x hx with hc | hc | hc
    · exact .inl (List.mem_cons_of_mem _ hc)
    · exact .inr (.inl hc)
    rw [hahead] at hc
    rcases List.mem_cons.mp hc with rfl | hc
    · exact .inl List.mem_cons_self
    · exact .inr (.inr hc)
  · intro hd
    simp only [htake, List.filter_append, ← hr.retained hd]
    simp [hw]
  · intro hd
    simp only [htake, List.filter_append, List.map_append, ← hr.closed hd]
    simp [hw]

/-- The loop ends at the end of its list, or waits for a service of its module and manifest. -/
theorem Sound.scan {ahead : List (Entry μ)} (hr : r.Sound w) (hahead : (w.lists r.source).drop r.index = ahead) :
    (∀ r' service, r.scan ahead = (r', some service) → Sound { w with called := service :: w.called } r') ∧
      ∀ r', r.scan ahead = (r', none) → r'.Sound w ∧ (w.lists r'.source).drop r'.index = [] := by
  induction ahead generalizing r with
  | nil =>
    constructor
    · intro r' service h
      cases h
    intro r' h
    cases h
    exact ⟨hr, hahead⟩
  | cons e rest ih =>
    rw [Retire.scan]
    by_cases hw : e.belongs r.moduleId r.manifest = true
    · rw [if_pos hw]
      constructor
      · intro r' service h
        cases h
        exact hr.reached hahead hw
      · intro r' h
        cases h
    · rw [if_neg hw]
      exact ih (hr.passed hahead (Bool.eq_false_iff.mpr hw)) (take_next hahead).2.1

theorem Sound.exact (hr : r.Sound w) (hend : (w.lists r.source).drop r.index = []) (hd : r.disturbed = false) :
    r.Exact := by
  obtain ⟨added, hlist, hadded⟩ := hr.listed hd
  have htake : (w.lists r.source).take r.index = r.listed ++ added := by
    rw [← hlist]
    exact List.take_of_length_le (List.drop_eq_nil_iff.mp hend)
  have hnone : added.filter (Entry.belongs r.moduleId r.manifest) = [] := by
    apply List.filter_eq_nil_iff.mpr
    intro e he
    simp [hadded e he]
  constructor
  · rw [hr.closed hd, htake, List.filter_append, hnone, List.append_nil]
  intro e he hw
  rw [hr.retained hd, htake]
  apply List.mem_filter.mpr
  simp [he, hw]

end Retire

structure Sound (w : World μ) : Prop where
  current : w.current < w.objects
  listed : ∀ e ∈ w.constructed, e.service ∈ w.called ∨ e ∈ w.lists w.current
  retires : ∀ r ∈ w.retires, r.Sound w
  closers : ∀ services ∈ w.closers, w.servicesClosed = true ∧
    ∀ e ∈ w.constructed, e.service ∈ w.called ∨ e.service ∈ services
  ended : ∀ r ∈ w.ended, r.disturbed = false → r.Exact
  returned : w.returned = true → w.servicesClosed = true ∧ ∀ e ∈ w.constructed, e.service ∈ w.called

namespace Sound

variable {w : World μ}

section

variable (h : Sound w)
include h

theorem erased (i : ℕ) : Sound { w with retires := w.retires.eraseIdx i } where
  current := h.current
  listed := h.listed
  retires r hr := (h.retires r (List.mem_of_mem_eraseIdx hr)).keep rfl (Nat.le_refl _) rfl rfl (fun _ => id) id
  closers := h.closers
  ended := h.ended
  returned := h.returned

theorem abandoned (i : ℕ) : Sound { w with closers := w.closers.eraseIdx i } where
  current := h.current
  listed := h.listed
  retires r hr := (h.retires r hr).keep rfl (Nat.le_refl _) rfl rfl (fun _ => id) fun hnone => by simp [hnone]
  closers services hs := h.closers services (List.mem_of_mem_eraseIdx hs)
  ended := h.ended
  returned := h.returned

theorem called (service : ℕ) : Sound { w with called := service :: w.called } where
  current := h.current
  listed e he := (h.listed e he).imp_left (List.mem_cons_of_mem _)
  retires r hr := (h.retires r hr).keep rfl (Nat.le_refl _) rfl rfl (fun _ => List.mem_cons_of_mem _) id
  closers services hs := by
    obtain ⟨hclosed, hall⟩ := h.closers services hs
    exact ⟨hclosed, fun e he => (hall e he).imp_left (List.mem_cons_of_mem _)⟩
  ended := h.ended
  returned hret := by
    obtain ⟨hclosed, hall⟩ := h.returned hret
    exact ⟨hclosed, fun e he => List.mem_cons_of_mem _ (hall e he)⟩

theorem iterate {r : Retire μ} (hr : r.Sound w) : Sound (w.iterate r) := by
  obtain ⟨hwaits, hends⟩ := hr.scan rfl
  unfold World.iterate
  split
  · rename_i r' service heq
    have hcalled := h.called service
    refine ⟨h.current, hcalled.listed, ?_, hcalled.closers, h.ended, hcalled.returned⟩
    intro x hx
    rcases List.mem_cons.mp hx with rfl | hx
    · exact (hwaits _ _ heq).keep rfl (Nat.le_refl _) rfl rfl (fun _ => id) id
    · exact (hcalled.retires x hx).keep rfl (Nat.le_refl _) rfl rfl (fun _ => id) id
  · rename_i r' heq
    obtain ⟨hr', hend⟩ := hends _ heq
    refine ⟨Nat.lt_succ_self _, ?_, ?_, h.closers, ?_, h.returned⟩
    · intro e he
      have hc := hr'.covers e he
      rw [hend] at hc
      simpa using hc
    · intro x hx
      have hx := h.retires x hx
      exact hx.keep (Function.update_of_ne (Nat.ne_of_lt hx.source) _ _) (Nat.le_succ _) rfl rfl (fun _ => id) id
    intro x hx hd
    rcases List.mem_cons.mp hx with rfl | hx
    · exact hr'.exact hend hd
    · exact h.ended x hx hd

theorem retire (moduleId : String) (manifest : μ) : Sound (w.retire moduleId manifest) := by
  apply h.iterate
  refine ⟨h.current, fun _ => Nat.zero_le _, ?_, ?_, fun _ => ⟨[], (List.append_nil _).symm, nofun⟩, fun _ => rfl, fun _ => rfl⟩
  · intro e he
    exact (h.listed e he).imp_right .inr
  · intro hd
    simpa using hd

theorem advance {services : List ℕ} (hclosed : w.servicesClosed = true)
    (hall : ∀ e ∈ w.constructed, e.service ∈ w.called ∨ e.service ∈ services)
    (hdisturbed : ∀ r ∈ w.retires, r.disturbed = true) : Sound (w.advance services) := by
  cases services with
  | nil =>
    have hall : ∀ e ∈ w.constructed, e.service ∈ w.called := by simpa using hall
    refine ⟨h.current, fun e he => .inl (hall e he), ?_, h.closers, h.ended, fun _ => ⟨hclosed, hall⟩⟩
    intro r hr
    have hd := hdisturbed r hr
    exact ⟨(h.retires r hr).source, by simp [World.advance, hclosed], fun e he => .inl (hall e he), by simp [hd], by simp [hd],
      by simp [hd], by simp [hd]⟩
  | cons service rest =>
    have hcalled := h.called service
    refine ⟨h.current, hcalled.listed, ?_, ?_, h.ended, hcalled.returned⟩
    · intro r hr
      have hd := hdisturbed r hr
      have hr := hcalled.retires r hr
      exact { hr with
        alone := by simp [hd]
        listed := by simp [hd]
        retained := by simp [hd]
        closed := by simp [hd] }
    · intro rem hrem
      rcases List.mem_cons.mp hrem with rfl | hrem
      · refine ⟨hclosed, fun e he => ?_⟩
        rcases hall e he with hc | hc
        · exact .inl (List.mem_cons_of_mem _ hc)
        · exact (List.mem_cons.mp hc).imp_left fun heq => List.mem_cons.mpr (.inl heq)
      · exact hcalled.closers rem hrem

theorem close : Sound w.close := by
  unfold World.close
  apply advance _ rfl
  · intro e he
    exact (h.listed e he).imp_right fun hlisted => List.mem_map_of_mem hlisted
  · intro r hr
    obtain ⟨x, -, rfl⟩ := List.mem_map.mp hr
    rfl
  refine ⟨h.current, h.listed, ?_, fun services hs => ⟨rfl, (h.closers services hs).2⟩, h.ended,
    fun hret => ⟨rfl, (h.returned hret).2⟩⟩
  intro r hr
  obtain ⟨x, hx, rfl⟩ := List.mem_map.mp hr
  have hx := h.retires x hx
  exact ⟨hx.source, nofun, hx.covers, nofun, nofun, nofun, nofun⟩

theorem resumeClose {i : ℕ} {services : List ℕ} (hi : w.closers[i]? = some services) :
    Sound (World.advance { w with closers := w.closers.eraseIdx i } services) := by
  have hmem : services ∈ w.closers := List.mem_of_getElem? hi
  obtain ⟨hclosed, hall⟩ := h.closers services hmem
  apply advance (h.abandoned i) hclosed hall
  intro r hr
  by_contra hd
  rw [(h.retires r hr).alone (Bool.eq_false_iff.mpr hd)] at hmem
  cases hmem

/-- A new service is ahead of every retirement that waits, and none of them closes it. -/
theorem build (moduleId : String) (manifest : μ) (b : Build)
    (hcalm : w.calm (.build moduleId manifest b) = true) : Sound (w.build moduleId manifest b) := by
  have http : ∀ http, Sound { w with http := http } := by
    intro http
    refine ⟨h.current, h.listed, ?_, h.closers, h.ended, h.returned⟩
    intro r hr
    exact (h.retires r hr).keep rfl (Nat.le_refl _) rfl rfl (fun _ => id) id
  unfold World.build
  split
  · rename_i hnew
    have hopen : w.servicesClosed = false := by
      cases b <;> simp_all [World.constructs]
    have hretires : ∀ r ∈ w.retires, r.source = w.current ∧
        Entry.belongs r.moduleId r.manifest ⟨moduleId, manifest, w.constructed.length⟩ = false := by
      simpa [World.calm, hnew] using hcalm
    have hlists : Function.update w.lists w.current (w.lists w.current ++ [⟨moduleId, manifest, w.constructed.length⟩])
        w.current = w.lists w.current ++ [⟨moduleId, manifest, w.constructed.length⟩] := Function.update_self ..
    refine ⟨h.current, ?_, ?_, ?_, h.ended, ?_⟩
    · intro e he
      change _ ∨ e ∈ Function.update w.lists w.current _ w.current
      rw [hlists, List.mem_append, List.mem_singleton]
      rcases List.mem_cons.mp he with rfl | he
      · exact .inr (.inr rfl)
      · exact (h.listed e he).imp_right .inl
    · intro r hr
      obtain ⟨hsource, hother⟩ := hretires r hr
      obtain ⟨h1, h2, h3, h4, h5, h6, h7⟩ := h.retires r hr
      rw [hsource] at h2 h3 h5 h6 h7
      have hle := h2 hopen
      constructor
      case source => exact h1
      case alone => exact h4
      all_goals simp only [hsource, hlists]
      case inBounds =>
        intro _
        rw [List.length_append]
        omega
      case covers =>
        intro e he
        rw [List.drop_append_of_le_length hle, List.mem_append, List.mem_singleton]
        rcases List.mem_cons.mp he with rfl | he
        · exact .inr (.inr (.inr rfl))
        · exact (h3 e he).imp_right (Or.imp_right .inl)
      case listed =>
        intro hd
        obtain ⟨added, hlist, hadded⟩ := h5 hd
        refine ⟨added ++ [⟨moduleId, manifest, w.constructed.length⟩], by rw [hlist, List.append_assoc], ?_⟩
        intro e he
        rcases List.mem_append.mp he with he | he
        · exact hadded e he
        · rw [List.mem_singleton.mp he]
          exact hother
      case retained =>
        intro hd
        rw [List.take_append_of_le_length hle, h6 hd]
      case closed =>
        intro hd
        rw [List.take_append_of_le_length hle, h7 hd]
    · intro services hs
      rw [(h.closers services hs).1] at hopen
      cases hopen
    · intro hret
      rw [(h.returned hret).1] at hopen
      cases hopen
  · cases b with
    | plain =>
      dsimp only
      split
      · exact h
      · exact http _
    | _ => exact h

theorem next (a : Action μ) (hcalm : w.calm a = true) : Sound (w.next a) := by
  cases a with
  | build moduleId manifest b => exact h.build moduleId manifest b hcalm
  | retire moduleId manifest => exact h.retire moduleId manifest
  | close => exact h.close
  | abandonRetire i => exact h.erased i
  | abandonClose i => exact h.abandoned i
  | resumeRetire i =>
    unfold World.next
    dsimp only
    split
    · rename_i r hr
      apply (h.erased i).iterate
      exact (h.retires r (List.mem_of_getElem? hr)).keep rfl (Nat.le_refl _) rfl rfl (fun _ => id) id
    · exact h
  | resumeClose i =>
    unfold World.next
    dsimp only
    split
    · rename_i services hi
      exact h.resumeClose hi
    · exact h

end

theorem of_reachable (h : (calmFactory μ).Reachable w) : Sound w := by
  refine h.invariant ?_ fun w a hw hcalm => hw.next a hcalm
  rintro _ rfl
  exact ⟨Nat.zero_lt_one, nofun, nofun, nofun, nofun, nofun⟩

end Sound

theorem iterate_keeps (w : World μ) (r : Retire μ) :
    (w.iterate r).servicesClosed = w.servicesClosed ∧ (w.iterate r).constructed = w.constructed := by
  unfold World.iterate
  split <;> exact ⟨rfl, rfl⟩

omit [DecidableEq μ] in
theorem advance_keeps (w : World μ) (services : List ℕ) :
    (w.advance services).servicesClosed = w.servicesClosed ∧ (w.advance services).constructed = w.constructed := by
  cases services <;> exact ⟨rfl, rfl⟩

theorem next_of_closed {w : World μ} (h : w.servicesClosed = true) (a : Action μ) :
    (w.next a).servicesClosed = true ∧ (w.next a).constructed = w.constructed := by
  rw [← h]
  cases a with
  | build moduleId manifest b => cases b <;> simp [World.next, World.build, World.constructs, h]
  | retire moduleId manifest => exact iterate_keeps w _
  | close => exact ⟨(advance_keeps _ _).1.trans h.symm, (advance_keeps _ _).2⟩
  | abandonRetire i => exact ⟨rfl, rfl⟩
  | abandonClose i => exact ⟨rfl, rfl⟩
  | resumeRetire i =>
    unfold World.next
    dsimp only
    split
    · exact iterate_keeps _ _
    · exact ⟨rfl, rfl⟩
  | resumeClose i =>
    unfold World.next
    dsimp only
    split
    · exact advance_keeps _ _
    · exact ⟨rfl, rfl⟩

theorem none_escapes_of_reachable (w : World μ) (h : (calmFactory μ).Reachable w) :
    (∀ e ∈ w.constructed, e.service ∈ w.called ∨ e ∈ w.lists w.current) ∧
      (∀ r ∈ w.ended, r.disturbed = false → r.Exact) ∧
      (w.returned = true → (∀ e ∈ w.constructed, e.service ∈ w.called) ∧
        ∀ as w', (calmFactory μ).Trace w as w' → w'.constructed = w.constructed) := by
  have hs := Sound.of_reachable h
  refine ⟨hs.listed, hs.ended, fun hret => ⟨(hs.returned hret).2, ?_⟩⟩
  intro as w' htrace
  refine (htrace.invariant (P := fun x => x.servicesClosed = true ∧ x.constructed = w.constructed) ?_
    ⟨(hs.returned hret).1, rfl⟩).2
  rintro x a ⟨hclosed, hsame⟩ -
  exact ⟨(next_of_closed hclosed a).1, (next_of_closed hclosed a).2.trans hsame⟩

theorem none_escapes_of_reachable_plain : (⟨"a", "1", 0⟩ : Entry String).service ∈
    ([.build "a" "1" (.credentials true), .retire "a" "1", .resumeRetire 0, .close].foldl (calmFactory String).next
      ⟨fun _ => [], 1, 0, false, fun _ => none, [], [], [], [], [], false⟩).called :=
  ((none_escapes_of_reachable _ ⟨_, _, rfl, .of_checked (fun w a (h : World.calm w a = true) => h) (by decide)⟩).2.2
    (by decide)).1 _ (by decide)

/-- Two retirements overlap, and a module is built between their ends. -/
theorem service_escapes : ∃ w, (factory String).Reachable w ∧ w.returned = true ∧
    ∃ e ∈ w.constructed, e.service ∉ w.called ∧ e ∉ w.lists w.current := by
  refine ⟨_, ⟨_, [.build "a" "1" (.credentials true), .build "b" "1" (.credentials true), .retire "a" "1", .retire "b" "1",
    .resumeRetire 0, .build "c" "1" (.credentials true), .resumeRetire 0, .close, .resumeClose 0],
    rfl, .of_always (fun _ _ _ => trivial) _⟩, ?_⟩
  decide

end GameLink.Sources.Credentials
