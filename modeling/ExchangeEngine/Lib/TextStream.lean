import Mathlib.Algebra.GroupWithZero.Nat
import Mathlib.Algebra.Ring.Int.Defs
import Mathlib.Data.List.Basic
import Mathlib.Data.List.TakeWhile
import Mathlib.Tactic.Common

/-!
# Formatted Text

Words and numbers are extracted from a text as the stream operators of C++ do it: white space before
them is skipped, a word ends before the next white space, a number after its last digit. An
extraction that finds nothing, or a number that does not fit, fails. What is left of the text is
returned with the value, so that extractions chain in the `Option` monad.

In the other direction, a `record` is a line of named values, as programs log them. It can be taken
apart again, because neither its tag nor its values contain a separator.

## Main results

* `word?_append`, `unsigned?_append`, `signed?_append`: what has been printed is extracted.
* `record_inj`: a record determines its tag and its values.
-/

namespace TextStream

/-! ### Extraction -/

/-- White space in the classic locale. -/
def isSpace (c : Char) : Bool :=
  c = ' ' || ('\t' ≤ c && c ≤ '\r')

/-- Extract a word. -/
def word? (s : List Char) : Option (List Char × List Char) :=
  let s := s.dropWhile isSpace
  let found := s.takeWhile fun c => !isSpace c
  if found = [] then none else some (found, s.dropWhile fun c => !isSpace c)

/-- Whether there is a minus before a number, and what comes after the sign. -/
def sign : List Char → Bool × List Char
  | [] => (false, [])
  | c :: s => if c = '-' then (true, s) else (false, if c = '+' then s else c :: s)

/-- The number that the digits at the front of a text stand for. -/
def magnitude? (s : List Char) : Option (ℕ × List Char) :=
  let digits := s.takeWhile Char.isDigit
  if digits = [] then none else some (Nat.ofDigitChars 10 digits 0, s.dropWhile Char.isDigit)

/-- Extract an unsigned number of a width. A minus negates it in that width. -/
def unsigned? (bits : ℕ) (s : List Char) : Option (ℕ × List Char) := do
  let (negative, s) := sign (s.dropWhile isSpace)
  let (value, s) ← magnitude? s
  if 2 ^ bits ≤ value then none
  else some (if negative then (2 ^ bits - value) % 2 ^ bits else value, s)

/-- Extract a signed number of a width. -/
def signed? (bits : ℕ) (s : List Char) : Option (ℤ × List Char) := do
  let (negative, s) := sign (s.dropWhile isSpace)
  let (value, s) ← magnitude? s
  if negative then
    if 2 ^ (bits - 1) < value then none else some (-value, s)
  else
    if 2 ^ (bits - 1) ≤ value then none else some (value, s)

/-- Print a number. -/
def printInt : ℤ → List Char
  | .ofNat n => Nat.toDigits 10 n
  | .negSucc n => '-' :: Nat.toDigits 10 (n + 1)

/-! ### What is extracted from what has been printed -/

/-- A word: there is something, and no white space in it. -/
def IsWord (s : List Char) : Prop :=
  s ≠ [] ∧ (s.all fun c => !isSpace c) = true

instance (s : List Char) : Decidable (IsWord s) :=
  inferInstanceAs (Decidable (_ ∧ _))

/-- A word or a number ends before `rest`: it is empty, or begins with white space. -/
def Delimits (rest : List Char) : Prop :=
  ∀ c ∈ rest.head?, isSpace c = true

section Extract

variable {rest : List Char}

theorem delimits_nil : Delimits [] := by
  intro c hc
  cases hc

theorem delimits_space (rest : List Char) : Delimits (' ' :: rest) := by
  rintro c hc
  obtain rfl := Option.some.inj hc
  rfl

/-- What is taken from a word before its end. -/
theorem takeWhile_append_of_delimits {p : Char → Bool} (hrest : Delimits rest)
    (hspace : ∀ c, isSpace c = true → p c = false) {s : List Char} (hs : ∀ c ∈ s, p c = true) :
    (s ++ rest).takeWhile p = s ∧ (s ++ rest).dropWhile p = rest := by
  have hend : rest.takeWhile p = [] ∧ rest.dropWhile p = rest := by
    cases rest with
    | nil => exact ⟨rfl, rfl⟩
    | cons c rest =>
        have hc : p c = false := hspace c (hrest c rfl)
        simp [hc]
  rw [List.takeWhile_append_of_pos hs, List.dropWhile_append_of_pos hs, hend.1, hend.2,
    List.append_nil]
  exact ⟨rfl, rfl⟩

theorem isSpace_eq_false_of_isDigit {c : Char} (h : c.isDigit = true) : isSpace c = false := by
  simp only [Char.isDigit, Bool.and_eq_true, decide_eq_true_eq, ge_iff_le] at h
  obtain ⟨hlow, hhigh⟩ := h
  simp only [isSpace, Bool.or_eq_false_iff, Bool.and_eq_false_iff, decide_eq_false_iff_not]
  refine ⟨?_, Or.inr ?_⟩
  · rintro rfl
    revert hlow
    decide
  · intro hle
    have hle' : c.val ≤ 13 := hle
    have : c.val.toNat ≤ 13 := hle'
    have : 48 ≤ c.val.toNat := hlow
    omega

/-- **A word** is extracted whole. -/
theorem word?_append {s : List Char} (h : IsWord s) (hrest : Delimits rest) :
    word? (s ++ rest) = some (s, rest) := by
  obtain ⟨hne, hall⟩ := h
  have hs : ∀ c ∈ s, isSpace c = false := fun c hc => by
    simpa using List.all_eq_true.mp hall c hc
  have hskip : (s ++ rest).dropWhile isSpace = s ++ rest := by
    cases s with
    | nil => exact absurd rfl hne
    | cons c s =>
        have hc := hs c List.mem_cons_self
        simp [hc]
  obtain ⟨htake, hdrop⟩ := takeWhile_append_of_delimits (p := fun c => !isSpace c) hrest
    (fun c hc => by simp [hc]) (s := s) (fun c hc => by simp [hs c hc])
  simp only [word?, hskip, htake, hdrop, if_neg hne]

/-- White space before a word makes no difference. -/
theorem word?_space (s : List Char) : word? (' ' :: s) = word? s :=
  rfl

theorem isDigit_of_mem_toDigits {n : ℕ} {c : Char} (hc : c ∈ Nat.toDigits 10 n) :
    c.isDigit = true :=
  Nat.isDigit_of_mem_toDigits (by omega) (by omega) hc

theorem magnitude?_append (n : ℕ) (hrest : Delimits rest) :
    magnitude? (Nat.toDigits 10 n ++ rest) = some (n, rest) := by
  obtain ⟨htake, hdrop⟩ := takeWhile_append_of_delimits (p := Char.isDigit) hrest
    (fun c hc => by
      by_contra hdigit
      rw [Bool.not_eq_false] at hdigit
      rw [isSpace_eq_false_of_isDigit hdigit] at hc
      cases hc)
    (s := Nat.toDigits 10 n) (fun c hc => isDigit_of_mem_toDigits hc)
  simp only [magnitude?, htake, hdrop, if_neg Nat.toDigits_ne_nil, Nat.ofDigitChars_ten_toDigits]

/-- Digits are neither white space nor a sign. -/
theorem sign_toDigits_append (n : ℕ) (rest : List Char) :
    sign ((Nat.toDigits 10 n ++ rest).dropWhile isSpace) = (false, Nat.toDigits 10 n ++ rest) := by
  cases hdigits : Nat.toDigits 10 n with
  | nil => exact absurd hdigits Nat.toDigits_ne_nil
  | cons c digits =>
      have hc : c.isDigit = true := by
        refine isDigit_of_mem_toDigits (n := n) ?_
        rw [hdigits]
        exact List.mem_cons_self
      have hminus : c ≠ '-' := by
        rintro rfl
        revert hc
        decide
      have hplus : c ≠ '+' := by
        rintro rfl
        revert hc
        decide
      rw [List.cons_append, List.dropWhile_cons_of_neg (by simp [isSpace_eq_false_of_isDigit hc])]
      simp [sign, hminus, hplus]

/-- **An unsigned number** that fits is extracted as printed. -/
theorem unsigned?_append {bits n : ℕ} (hn : n < 2 ^ bits) (hrest : Delimits rest) :
    unsigned? bits (Nat.toDigits 10 n ++ rest) = some (n, rest) := by
  simp [unsigned?, sign_toDigits_append, magnitude?_append n hrest, Nat.not_le.mpr hn]

/-- A minus before an unsigned number negates it in its width. -/
theorem unsigned?_minus_append {bits n : ℕ} (hn : n < 2 ^ bits) (hrest : Delimits rest) :
    unsigned? bits ('-' :: (Nat.toDigits 10 n ++ rest)) = some ((2 ^ bits - n) % 2 ^ bits, rest) := by
  have hsign : sign (('-' :: (Nat.toDigits 10 n ++ rest)).dropWhile isSpace) =
      (true, Nat.toDigits 10 n ++ rest) := rfl
  simp only [unsigned?, hsign, magnitude?_append n hrest, Option.bind_eq_bind, Option.bind_some,
    if_true, if_neg (Nat.not_le.mpr hn)]

theorem unsigned?_space (bits : ℕ) (s : List Char) : unsigned? bits (' ' :: s) = unsigned? bits s :=
  rfl

/-- **A signed number** that fits is extracted as printed. -/
theorem signed?_append {bits : ℕ} {i : ℤ} (hlow : -2 ^ (bits - 1) ≤ i) (hhigh : i < 2 ^ (bits - 1))
    (hrest : Delimits rest) : signed? bits (printInt i ++ rest) = some (i, rest) := by
  cases i with
  | ofNat n =>
      have hn : ¬ 2 ^ (bits - 1) ≤ n := by
        intro hle
        have : ((2 ^ (bits - 1) : ℕ) : ℤ) ≤ (n : ℤ) := Int.ofNat_le.mpr hle
        rw [Int.natCast_pow] at this
        exact absurd hhigh (Int.not_lt.mpr this)
      simp [signed?, printInt, sign_toDigits_append, magnitude?_append n hrest, hn]
  | negSucc n =>
      have hn : ¬ 2 ^ (bits - 1) < n + 1 := by
        intro hlt
        have : ((2 ^ (bits - 1) : ℕ) : ℤ) < ((n + 1 : ℕ) : ℤ) := Int.ofNat_lt.mpr hlt
        rw [Int.natCast_pow] at this
        rw [Int.negSucc_eq] at hlow
        push_cast at this hlow
        omega
      have hsign : sign ((printInt (.negSucc n) ++ rest).dropWhile isSpace) =
          (true, Nat.toDigits 10 (n + 1) ++ rest) := rfl
      have hvalue : -((n + 1 : ℕ) : ℤ) = .negSucc n := rfl
      simp only [signed?, hsign, magnitude?_append (n + 1) hrest, Option.bind_eq_bind,
        Option.bind_some, if_true, if_neg hn, hvalue]

theorem signed?_space (bits : ℕ) (s : List Char) : signed? bits (' ' :: s) = signed? bits s :=
  rfl

end Extract

/-! ### Records -/

/-- A text without separators. -/
def Plain (s : List Char) : Prop :=
  (s.all fun c => c ≠ ' ' && c ≠ '=' && c ≠ '\n') = true

instance (s : List Char) : Decidable (Plain s) :=
  inferInstanceAs (Decidable (_ = true))

/-- Named values up to the end of the line, each after a space. -/
def recordEnd : List (List Char × List Char) → List Char
  | [] => ['\n']
  | (name, value) :: fields => ' ' :: (name ++ '=' :: (value ++ recordEnd fields))

/-- A line of named values, after a tag. -/
def record (tag : List Char) (fields : List (List Char × List Char)) : List Char :=
  tag ++ recordEnd fields

section Records

variable {s s' rest rest' : List Char} {c c' : Char}

/-- Text before a separator is determined by the whole. -/
theorem plain_append_inj (hs : Plain s) (hs' : Plain s') (hc : ¬ Plain [c]) (hc' : ¬ Plain [c'])
    (h : s ++ c :: rest = s' ++ c' :: rest') : s = s' ∧ c = c' ∧ rest = rest' := by
  have hplain : ∀ {x : Char} {text : List Char}, Plain (x :: text) → Plain [x] ∧ Plain text := by
    intro x text hx
    obtain ⟨hhead, htail⟩ := Bool.and_eq_true_iff.mp hx
    exact ⟨Bool.and_eq_true_iff.mpr ⟨hhead, rfl⟩, htail⟩
  induction s generalizing s' with
  | nil =>
      cases s' with
      | nil =>
          obtain ⟨hchar, hrest⟩ := List.cons.inj h
          exact ⟨rfl, hchar, hrest⟩
      | cons x s' =>
          obtain ⟨rfl, -⟩ := List.cons.inj h
          exact absurd (hplain hs').1 hc
  | cons x s ih =>
      cases s' with
      | nil =>
          obtain ⟨rfl, -⟩ := List.cons.inj h
          exact absurd (hplain hs).1 hc'
      | cons x' s' =>
          obtain ⟨rfl, htail⟩ := List.cons.inj h
          obtain ⟨rfl, hrest⟩ := ih (hplain hs).2 (hplain hs').2 htail
          exact ⟨rfl, hrest⟩

/-- The rest of a line begins with a separator. -/
theorem exists_recordEnd (fields : List (List Char × List Char)) :
    ∃ c rest, recordEnd fields = c :: rest ∧ ¬ Plain [c] := by
  cases fields with
  | nil => exact ⟨'\n', [], rfl, by decide⟩
  | cons field fields => exact ⟨' ', _, rfl, by decide⟩

/-- A text and the line that follows it are determined by the whole. -/
theorem plain_append_recordEnd_inj (hs : Plain s) (hs' : Plain s')
    {fields fields' : List (List Char × List Char)}
    (h : s ++ recordEnd fields = s' ++ recordEnd fields') :
    s = s' ∧ recordEnd fields = recordEnd fields' := by
  obtain ⟨c, rest, hend, hc⟩ := exists_recordEnd fields
  obtain ⟨c', rest', hend', hc'⟩ := exists_recordEnd fields'
  rw [hend, hend'] at h ⊢
  obtain ⟨hsame, rfl, rfl⟩ := plain_append_inj hs hs' hc hc' h
  exact ⟨hsame, rfl⟩

theorem recordEnd_inj {fields fields' : List (List Char × List Char)}
    (hfields : ∀ f ∈ fields, Plain f.1 ∧ Plain f.2)
    (hfields' : ∀ f ∈ fields', Plain f.1 ∧ Plain f.2)
    (h : recordEnd fields = recordEnd fields') : fields = fields' := by
  induction fields generalizing fields' with
  | nil =>
      cases fields' with
      | nil => rfl
      | cons f' fields' => exact absurd (List.cons.inj h).1 (by decide)
  | cons f fields ih =>
      cases fields' with
      | nil => exact absurd (List.cons.inj h).1 (by decide)
      | cons f' fields' =>
          obtain ⟨name, value⟩ := f
          obtain ⟨name', value'⟩ := f'
          obtain ⟨hname, hvalue⟩ := hfields _ List.mem_cons_self
          obtain ⟨hname', hvalue'⟩ := hfields' _ List.mem_cons_self
          obtain ⟨rfl, -, hrest⟩ :=
            plain_append_inj hname hname' (by decide) (by decide) (List.cons.inj h).2
          obtain ⟨rfl, hend⟩ := plain_append_recordEnd_inj hvalue hvalue' hrest
          rw [ih (fun f hf => hfields f (List.mem_cons_of_mem _ hf))
            (fun f hf => hfields' f (List.mem_cons_of_mem _ hf)) hend]

/-- **A record determines its tag and its values.** -/
theorem record_inj {tag tag' : List Char} {fields fields' : List (List Char × List Char)}
    (htag : Plain tag) (htag' : Plain tag') (hfields : ∀ f ∈ fields, Plain f.1 ∧ Plain f.2)
    (hfields' : ∀ f ∈ fields', Plain f.1 ∧ Plain f.2)
    (h : record tag fields = record tag' fields') : tag = tag' ∧ fields = fields' := by
  obtain ⟨hsame, hend⟩ := plain_append_recordEnd_inj htag htag' h
  exact ⟨hsame, recordEnd_inj hfields hfields' hend⟩

theorem plain_toDigits (n : ℕ) : Plain (Nat.toDigits 10 n) := by
  refine List.all_eq_true.mpr fun c hc => ?_
  have hdigit := isDigit_of_mem_toDigits hc
  have hne : ∀ separator : Char, separator.isDigit = false → c ≠ separator := by
    rintro separator hnot rfl
    rw [hnot] at hdigit
    cases hdigit
  simp [hne ' ' rfl, hne '=' rfl, hne '\n' rfl]

theorem plain_printInt (i : ℤ) : Plain (printInt i) := by
  cases i with
  | ofNat n => exact plain_toDigits n
  | negSucc n => exact Bool.and_eq_true_iff.mpr ⟨rfl, plain_toDigits (n + 1)⟩

theorem toDigits_inj {n n' : ℕ} (h : Nat.toDigits 10 n = Nat.toDigits 10 n') : n = n' := by
  rw [← Nat.ofDigitChars_ten_toDigits (n := n), h, Nat.ofDigitChars_ten_toDigits]

theorem printInt_inj {i i' : ℤ} (h : printInt i = printInt i') : i = i' := by
  -- a sign is no digit
  have hsign : ∀ n n' : ℕ, printInt (.ofNat n) ≠ printInt (.negSucc n') := by
    intro n n' hsame
    have hmem : '-' ∈ Nat.toDigits 10 n := by
      rw [show Nat.toDigits 10 n = _ from hsame]
      exact List.mem_cons_self
    exact absurd (isDigit_of_mem_toDigits hmem) (by decide)
  cases i with
  | ofNat n =>
      cases i' with
      | ofNat n' => rw [toDigits_inj h]
      | negSucc n' => exact absurd h (hsign n n')
  | negSucc n =>
      cases i' with
      | ofNat n' => exact absurd h.symm (hsign n' n)
      | negSucc n' =>
          rw [Nat.succ_injective (toDigits_inj (List.cons.inj h).2)]

end Records

end TextStream
