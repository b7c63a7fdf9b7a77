import Mathlib.Data.List.Basic
import Mathlib.Data.Int.ModEq

namespace GameLink.Presentation.PngValidation

inductive PngValidationError where
  | imageInvalid
  | imageBudget
  deriving DecidableEq

/-- `decompressobj` and its attributes; `none` is a `zlib.error`. -/
structure Inflater where
  State : Type
  start : State
  decompress : State → List UInt8 → ℕ → Option (List UInt8 × State)
  unconsumedTail : State → List UInt8
  unusedData : State → List UInt8
  eof : State → Bool

/-- An incremental decoder of the streams `decodes`. `At s c o`: it has consumed `c` and given `o`. -/
structure Inflater.Correct (I : Inflater) (decodes : List UInt8 → List UInt8 → Prop)
    (At : I.State → List UInt8 → List UInt8 → Prop) : Prop where
  unique : ∀ {z x y}, decodes z x → decodes z y → x = y
  prefixFree : ∀ {z t x y}, decodes z x → decodes (z ++ t) y → t = []
  start : At I.start [] [] ∧ I.unconsumedTail I.start = [] ∧ I.unusedData I.start = []
  before : ∀ {s c o t x}, At s c o → decodes (c ++ t) x → o <+: x
  ended : ∀ {s c o}, At s c o → I.eof s = true → decodes c o
  complete : ∀ {s c o x}, At s c o → decodes c x → I.eof s = true
  accepts : ∀ {s c o data t x n}, At s c o → I.eof s = false → decodes (c ++ data ++ t) x → (I.decompress s data n).isSome
  step : ∀ {s c o data n out s'}, At s c o → I.eof s = false → 0 < n → I.decompress s data n = some (out, s') →
    out.length ≤ n ∧ (out.length < n → I.unconsumedTail s' = []) ∧ (I.eof s' = false → I.unusedData s' = []) ∧
      (I.eof s' = true → I.unconsumedTail s' = []) ∧
        ∃ used, data = used ++ (I.unconsumedTail s' ++ I.unusedData s') ∧ At s' (c ++ used) (o ++ out)
  after : ∀ {s c o data n out s'}, At s c o → I.eof s = true → I.decompress s data n = some (out, s') →
    out = [] ∧ I.unusedData s' = I.unusedData s ++ data

variable (I : Inflater)

/-- A checked position holds a filter above 4. -/
def badFilter (stride decoded : ℕ) (output : List UInt8) : Bool :=
  output.zipIdx.any fun x =>
    let first := (-(decoded : ℤ)) % stride
    decide (first ≤ x.2) && decide ((x.2 - first) % stride = 0) && decide (4 < x.1.toNat)

/-- What `consume` raises about, after a call of `decompress`. -/
def refused (expected stride decoded : ℕ) (remaining output : List UInt8) (s : I.State) : Bool :=
  decide (expected < decoded + output.length) || badFilter stride decoded output || !(I.unusedData s).isEmpty ||
    !(I.unconsumedTail s).isEmpty && decide (remaining.length ≤ (I.unconsumedTail s).length) && output.isEmpty

theorem refused_progress {expected stride decoded : ℕ} {remaining output : List UInt8} {s : I.State}
    (hremaining : remaining ≠ []) (h : ¬ refused I expected stride decoded remaining output s = true) :
    decoded + output.length ≤ expected ∧ (output = [] → (I.unconsumedTail s).length < remaining.length) := by
  simp only [refused, Bool.or_eq_true, not_or, decide_eq_true_eq, Bool.and_eq_true, Bool.not_eq_true', List.isEmpty_eq_false_iff,
    List.isEmpty_iff] at h
  have hlen := List.length_pos_of_ne_nil hremaining
  refine ⟨by omega, ?_⟩
  rintro rfl
  by_cases htail : I.unconsumedTail s = []
  · rw [htail]
    exact hlen
  · by_contra hle
    exact h.2 ⟨⟨htail, Nat.not_lt.mp hle⟩, rfl⟩

/-- The first part is history: what was expected and what was decoded, at each call of `decompress`. -/
def consume (expected stride : ℕ) (s : I.State) (decoded : ℕ) (remaining : List UInt8) :
    List (ℕ × ℕ) × Except PngValidationError (I.State × ℕ) :=
  if hremaining : remaining = [] then ([], .ok (s, decoded))
  else
    match I.decompress s remaining (min 65536 (expected - decoded + 1)) with
    | none => ([], .error .imageInvalid)
    | some (output, s') =>
      if hrefused : refused I expected stride decoded remaining output s' = true then
        ([(expected, decoded + output.length)], .error .imageInvalid)
      else
        let (calls, result) := consume expected stride s' (decoded + output.length) (I.unconsumedTail s')
        ((expected, decoded + output.length) :: calls, result)
termination_by (expected - decoded, remaining.length)
decreasing_by
  obtain ⟨hle, htail⟩ := refused_progress I hremaining hrefused
  rw [Prod.lex_def]
  cases output with
  | nil => exact .inr ⟨rfl, htail rfl⟩
  | cons b output =>
    rw [List.length_cons] at hle ⊢
    exact .inl (by dsimp only; omega)

/-- Big-endian, as in `unpack_from`. -/
def number (bytes : List UInt8) : ℕ := bytes.foldl (fun n b => 256 * n + b.toNat) 0

def idat : List UInt8 := [0x49, 0x44, 0x41, 0x54]

def iend : List UInt8 := [0x49, 0x45, 0x4E, 0x44]

variable (crc32 : List UInt8 → ℕ)

/-- Every row begins with a filter of at most 4. -/
def Filtered (stride : ℕ) (o : List UInt8) : Prop := ∀ i b, o[i]? = some b → stride ∣ i → b.toNat ≤ 4

theorem filter_position {stride decoded i : ℕ} (hstride : 0 < stride) :
    (-(decoded : ℤ)) % stride ≤ i ∧ ((i : ℤ) - (-(decoded : ℤ)) % stride) % stride = 0 ↔ stride ∣ decoded + i := by
  have hpos : (0 : ℤ) < stride := by exact_mod_cast hstride
  have hlt := Int.emod_lt_of_pos (-(decoded : ℤ)) hpos
  have hdvd : (stride : ℤ) ∣ (i : ℤ) - (-(decoded : ℤ)) % stride ↔ stride ∣ decoded + i := by
    rw [← Int.natCast_dvd_natCast, Int.emod_def]
    have heq : (i : ℤ) - (-(decoded : ℤ) - stride * (-(decoded : ℤ) / stride)) =
        ((decoded + i : ℕ) : ℤ) + stride * (-(decoded : ℤ) / stride) := by
      push_cast
      omega
    rw [heq, Int.dvd_add_left (Int.dvd_mul_right ..)]
  rw [← Int.dvd_iff_emod_eq_zero, hdvd]
  refine ⟨And.right, fun h => ⟨?_, h⟩⟩
  by_contra hle
  have hdiv := Int.dvd_neg.mpr (hdvd.mpr h)
  have := Int.le_of_dvd (by omega) hdiv
  omega

theorem badFilter_eq_false {stride decoded : ℕ} {output : List UInt8} (hstride : 0 < stride) :
    badFilter stride decoded output = false ↔
      ∀ i b, output[i]? = some b → stride ∣ decoded + i → b.toNat ≤ 4 := by
  rw [badFilter, List.any_eq_false]
  constructor
  · intro h i b hb hd
    have h := h (b, i) (List.mem_zipIdx_iff_getElem?.mpr hb)
    obtain ⟨hle, hmod⟩ := (filter_position hstride).mpr hd
    simpa [hle, hmod] using h
  · rintro h ⟨b, i⟩ hx
    have h := h i b (List.mem_zipIdx_iff_getElem?.mp hx)
    simp only [Bool.and_eq_true, decide_eq_true_eq, filter_position hstride]
    rintro ⟨hd, hb⟩
    exact Nat.not_lt.mpr (h hd) hb

theorem Filtered.append {stride : ℕ} {o out : List UInt8} :
    Filtered stride (o ++ out) ↔ Filtered stride o ∧ ∀ i b, out[i]? = some b → stride ∣ o.length + i → b.toNat ≤ 4 := by
  constructor
  · intro h
    constructor
    · intro i b hb
      have hlt := (List.getElem?_eq_some_iff.mp hb).1
      exact h i b (by rw [List.getElem?_append_left hlt, hb])
    · intro i b hb
      apply h
      rw [List.getElem?_append_right (Nat.le_add_right ..), Nat.add_sub_cancel_left, hb]
  · rintro ⟨ho, hout⟩ i b hb hd
    by_cases hlt : i < o.length
    · rw [List.getElem?_append_left hlt] at hb
      exact ho i b hb hd
    · rw [List.getElem?_append_right (Nat.not_lt.mp hlt)] at hb
      exact hout _ b hb (by rwa [Nat.add_sub_cancel' (Nat.not_lt.mp hlt)])

section

variable {I} {decodes : List UInt8 → List UInt8 → Prop} {At : I.State → List UInt8 → List UInt8 → Prop} {expected stride : ℕ}

variable (At expected stride) in
/-- Between two calls of `decompress`: `o` has been checked, and `remaining` is next. -/
structure Ready (s : I.State) (c o remaining : List UInt8) : Prop where
  at_ : At s c o
  bounded : o.length ≤ expected
  filtered : Filtered stride o
  unused : I.unusedData s = []
  tail : remaining = [] → I.unconsumedTail s = []

/-- A call that is not refused goes on behind what it used; before it ends the stream it gives some output, or uses everything. -/
theorem Ready.call (hI : I.Correct decodes At) (hstride : 0 < stride) {s s' : I.State} {c o remaining output : List UInt8}
    (h : Ready At expected stride s c o remaining) (hremaining : remaining ≠ [])
    (hcall : I.decompress s remaining (min 65536 (expected - o.length + 1)) = some (output, s')) :
    o.length + output.length ≤ expected + 1 ∧
      (refused I expected stride o.length remaining output s' = false →
        ∃ used, remaining = used ++ I.unconsumedTail s' ∧
          Ready At expected stride s' (c ++ used) (o ++ output) (I.unconsumedTail s')) := by
  have hbounded := h.bounded
  cases heof : I.eof s with
  | true =>
    obtain ⟨rfl, hunused⟩ := hI.after h.at_ heof hcall
    refine ⟨by rw [List.length_nil]; omega, fun hrefused => ?_⟩
    simp [refused, hunused, hremaining] at hrefused
  | false =>
    obtain ⟨hlength, -, -, -, used, hused, hat⟩ := hI.step h.at_ heof (by omega) hcall
    refine ⟨by omega, fun hrefused => ?_⟩
    simp only [refused, Bool.or_eq_false_iff, decide_eq_false_iff_not, Nat.not_lt, Bool.not_eq_eq_eq_not, Bool.not_false,
      List.isEmpty_iff, badFilter_eq_false hstride] at hrefused
    obtain ⟨⟨⟨hle, hfilter⟩, hunused⟩, -⟩ := hrefused
    rw [hunused, List.append_nil] at hused
    exact ⟨used, hused, hat, by rwa [List.length_append], Filtered.append.mpr ⟨h.filtered, hfilter⟩, hunused, id⟩

theorem Ready.running (hI : I.Correct decodes At) {s : I.State} {c o remaining t x : List UInt8}
    (h : Ready At expected stride s c o remaining) (hremaining : remaining ≠ []) (hx : decodes (c ++ remaining ++ t) x) :
    I.eof s = false := by
  by_contra hne
  rw [List.append_assoc] at hx
  have hnil := hI.prefixFree (hI.ended h.at_ (Bool.eq_true_of_not_eq_false hne)) hx
  exact hremaining (List.append_eq_nil_iff.mp hnil).1

end

def Chunk (l kind payload : List UInt8) : Prop :=
  ∃ length sum, l = length ++ (kind ++ (payload ++ sum)) ∧ length.length = 4 ∧ kind.length = 4 ∧ sum.length = 4 ∧
    number length = payload.length ∧ number sum = crc32 (kind ++ payload)

/-- `IDAT` chunks with these payloads, and an empty `IEND` at the end. -/
inductive Body : List UInt8 → List (List UInt8) → Prop
  | iend {l : List UInt8} (h : Chunk crc32 l iend []) : Body l []
  | idat {l tail payload : List UInt8} {payloads : List (List UInt8)} (h : Chunk crc32 l idat payload) (hbody : Body tail payloads) :
      Body (l ++ tail) (payload :: payloads)

section

variable {I} {decodes : List UInt8 → List UInt8 → Prop} {At : I.State → List UInt8 → List UInt8 → Prop} {expected stride : ℕ}

end

end GameLink.Presentation.PngValidation
