import Mathlib

set_option autoImplicit false

/-!
# Base64 with the URL alphabet

Three bytes are written as four characters. The decoder is the lenient scan of `binascii`: a
character outside the alphabet is skipped, a pad that completes a group ends the text, and a
group left open at the end is an error.
-/
namespace IeltsHub.Base64

def alphabet : List Char :=
  "ABCDEFGHIJKLMNOPQRSTUVWXYZabcdefghijklmnopqrstuvwxyz0123456789-_".toList

def charOf (n : ℕ) : Char := alphabet.getD n 'A'

def valueOf? (c : Char) : Option ℕ :=
  if c = '+' then some 62
  else if c = '/' then some 63
  else if c ∈ alphabet then some (alphabet.idxOf c) else none

def encode : List UInt8 → List Char
  | [] => []
  | [a] => [charOf (a.toNat / 4), charOf (a.toNat % 4 * 16), '=', '=']
  | [a, b] =>
    [charOf (a.toNat / 4), charOf (a.toNat % 4 * 16 + b.toNat / 16), charOf (b.toNat % 16 * 4), '=']
  | a :: b :: c :: rest =>
    charOf (a.toNat / 4) :: charOf (a.toNat % 4 * 16 + b.toNat / 16) ::
      charOf (b.toNat % 16 * 4 + c.toNat / 64) :: charOf (c.toNat % 64) :: encode rest

/-- `quad` characters of a group have been read, `left` holds their bits not yet written. -/
def scan : (quad left pads : ℕ) → List Char → Option (List UInt8)
  | quad, _, _, [] => if quad = 0 then some [] else none
  | quad, left, pads, c :: cs =>
    if c = '=' then
      if 2 ≤ quad ∧ 4 ≤ quad + (pads + 1) then some []
      else scan quad left (if 2 ≤ quad then pads + 1 else pads) cs
    else
      match valueOf? c with
      | none => scan quad left pads cs
      | some v =>
        match quad with
        | 0 => scan 1 v 0 cs
        | 1 => (UInt8.ofNat (left * 4 + v / 16) :: ·) <$> scan 2 (v % 16) 0 cs
        | 2 => (UInt8.ofNat (left * 16 + v / 4) :: ·) <$> scan 3 (v % 4) 0 cs
        | _ => (UInt8.ofNat (left * 64 + v) :: ·) <$> scan 0 0 0 cs

def decode (cs : List Char) : Option (List UInt8) := scan 0 0 0 cs

/-! ## The alphabet -/

theorem charOf_spec : ∀ n < 64, charOf n ≠ '=' ∧ valueOf? (charOf n) = some n := by
  decide +kernel

theorem charOf_ne_pad {n : ℕ} (h : n < 64) : charOf n ≠ '=' := (charOf_spec n h).1

@[simp] theorem valueOf?_charOf {n : ℕ} (h : n < 64) : valueOf? (charOf n) = some n :=
  (charOf_spec n h).2

section
variable {left pads n : ℕ} (cs : List Char)

theorem scan_charOf (quad : ℕ) (h : n < 64) : scan quad left pads (charOf n :: cs) =
    match quad with
    | 0 => scan 1 n 0 cs
    | 1 => (UInt8.ofNat (left * 4 + n / 16) :: ·) <$> scan 2 (n % 16) 0 cs
    | 2 => (UInt8.ofNat (left * 16 + n / 4) :: ·) <$> scan 3 (n % 4) 0 cs
    | _ => (UInt8.ofNat (left * 64 + n) :: ·) <$> scan 0 0 0 cs := by
  rw [scan, if_neg (charOf_ne_pad h), valueOf?_charOf h]

theorem scan_first (h : n < 64) : scan 0 left pads (charOf n :: cs) = scan 1 n 0 cs :=
  scan_charOf cs 0 h

theorem scan_second (h : n < 64) : scan 1 left pads (charOf n :: cs) =
    (UInt8.ofNat (left * 4 + n / 16) :: ·) <$> scan 2 (n % 16) 0 cs :=
  scan_charOf cs 1 h

theorem scan_third (h : n < 64) : scan 2 left pads (charOf n :: cs) =
    (UInt8.ofNat (left * 16 + n / 4) :: ·) <$> scan 3 (n % 4) 0 cs :=
  scan_charOf cs 2 h

theorem scan_fourth (h : n < 64) : scan 3 left pads (charOf n :: cs) =
    (UInt8.ofNat (left * 64 + n) :: ·) <$> scan 0 0 0 cs :=
  scan_charOf cs 3 h

end

theorem ofNat_eq {n : ℕ} {a : UInt8} (h : n = a.toNat) : UInt8.ofNat n = a := by
  rw [h]
  exact UInt8.ofNat_toNat

/-! ## The round trip -/

theorem scan_encode (bs : List UInt8) (pads : ℕ) : scan 0 0 pads (encode bs) = some bs := by
  induction bs using encode.induct generalizing pads with
  | case1 => rfl
  | case2 a =>
    have ha := a.toNat_lt
    rw [encode, scan_first _ (by omega), scan_second _ (by omega)]
    simp only [ofNat_eq (a := a) (n := a.toNat / 4 * 4 + a.toNat % 4 * 16 / 16) (by omega)]
    rfl
  | case3 a b =>
    have ha := a.toNat_lt
    have hb := b.toNat_lt
    rw [encode, scan_first _ (by omega), scan_second _ (by omega), scan_third _ (by omega)]
    simp only [ofNat_eq (a := a)
      (n := a.toNat / 4 * 4 + (a.toNat % 4 * 16 + b.toNat / 16) / 16) (by omega),
      ofNat_eq (a := b)
      (n := (a.toNat % 4 * 16 + b.toNat / 16) % 16 * 16 + b.toNat % 16 * 4 / 4) (by omega)]
    rfl
  | case4 a b c rest ih =>
    have ha := a.toNat_lt
    have hb := b.toNat_lt
    have hc := c.toNat_lt
    rw [encode, scan_first _ (by omega), scan_second _ (by omega), scan_third _ (by omega),
      scan_fourth _ (by omega)]
    simp only [ih, ofNat_eq (a := a)
      (n := a.toNat / 4 * 4 + (a.toNat % 4 * 16 + b.toNat / 16) / 16) (by omega),
      ofNat_eq (a := b)
      (n := (a.toNat % 4 * 16 + b.toNat / 16) % 16 * 16 +
        (b.toNat % 16 * 4 + c.toNat / 64) / 4) (by omega),
      ofNat_eq (a := c)
      (n := (b.toNat % 16 * 4 + c.toNat / 64) % 4 * 64 + c.toNat % 64) (by omega)]
    rfl

theorem decode_encode (bs : List UInt8) : decode (encode bs) = some bs := scan_encode bs 0

theorem encode_eq_append (bs : List UInt8) : ∃ body k, encode bs = body ++ List.replicate k '=' ∧
    (∀ c ∈ body, c ∈ alphabet) ∧ k ≤ 2 ∧ (body.length + k) % 4 = 0 := by
  have hmem : ∀ n < 64, charOf n ∈ alphabet := by decide +kernel
  induction bs using encode.induct with
  | case1 => exact ⟨[], 0, rfl, by simp, by omega, by simp⟩
  | case2 a =>
    have ha := a.toNat_lt
    refine ⟨[charOf (a.toNat / 4), charOf (a.toNat % 4 * 16)], 2, rfl, ?_, by omega, by simp⟩
    simp only [List.forall_mem_cons, List.not_mem_nil, false_imp_iff, implies_true, and_true]
    exact ⟨hmem _ (by omega), hmem _ (by omega)⟩
  | case3 a b =>
    have ha := a.toNat_lt
    have hb := b.toNat_lt
    refine ⟨[charOf (a.toNat / 4), charOf (a.toNat % 4 * 16 + b.toNat / 16),
      charOf (b.toNat % 16 * 4)], 1, rfl, ?_, by omega, by simp⟩
    simp only [List.forall_mem_cons, List.not_mem_nil, false_imp_iff, implies_true, and_true]
    exact ⟨hmem _ (by omega), hmem _ (by omega), hmem _ (by omega)⟩
  | case4 a b c rest ih =>
    have ha := a.toNat_lt
    have hb := b.toNat_lt
    have hc := c.toNat_lt
    obtain ⟨body, k, h, hbody, hk, hlen⟩ := ih
    refine ⟨charOf (a.toNat / 4) :: charOf (a.toNat % 4 * 16 + b.toNat / 16) ::
      charOf (b.toNat % 16 * 4 + c.toNat / 64) :: charOf (c.toNat % 64) :: body, k, ?_, ?_, hk, ?_⟩
    · rw [encode, h]
      rfl
    · simp only [List.forall_mem_cons]
      exact ⟨hmem _ (by omega), hmem _ (by omega), hmem _ (by omega), hmem _ (by omega), hbody⟩
    · simp only [List.length_cons]
      omega

end IeltsHub.Base64
