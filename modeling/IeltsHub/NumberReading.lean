import IeltsHub.CardinalWords
import IeltsHub.QtypesNormalizers

set_option autoImplicit false

/-!
# Reading the words of a cardinal

`_number_word` over words whose values are known. The phrases of a lexicon join one or the article
to a following hundred or thousand; the parser then takes a token with the scale word behind it and
whatever it finds below the scale, or tens with a unit; everything else it takes alone.
-/
namespace IeltsHub.NumberReading
open QtypesNormalizers CardinalWords

/-! ## Phrases of the lexicon -/

def phrase? (w v : Word) : Option Tok :=
  if w = .plain (.unit 0) ∨ w = .plain .article then
    if v = .plain .hundred then some .oneHundred
    else if v = .plain .thousand then some .oneThousand
    else none
  else none

def merge : List Word → List Word
  | [] => []
  | [w] => [w]
  | w :: v :: ws =>
    match phrase? w v with
    | some t => .plain t :: merge ws
    | none => w :: merge (v :: ws)

def tokens (ws : List Word) : List Tok := (merge ws).flatMap Word.toks

/-! ## The parser over tokens -/

def dropAnd : List Tok → List Tok
  | .and :: ts => ts
  | ts => ts

def andCount : List Tok → ℕ
  | .and :: _ => 1
  | _ => 0

def first? (ts : List Tok) : Option ℕ := ts.head?.bind Tok.value?

def scaleNext? (ts : List Tok) : Option ℕ := ts.head?.bind Tok.scale?

theorem length_dropAnd (ts : List Tok) : (dropAnd ts).length + andCount ts = ts.length := by
  cases ts with
  | nil => rfl
  | cons t ts => cases t <;> rfl

def parse : List Tok → ℕ × ℕ
  | [] => (0, 0)
  | t :: ts =>
    match t.value? with
    | none => (0, 0)
    | some n =>
      match scaleNext? ts with
      | some s =>
        match first? (dropAnd ts.tail) with
        | some r =>
          if r < s then
            (2 + andCount ts.tail + (parse (dropAnd ts.tail)).1,
              n * s + (parse (dropAnd ts.tail)).2)
          else (2, n * s)
        | none => (2, n * s)
      | none =>
        if Tens n then
          match first? ts with
          | some u => if 1 ≤ u ∧ u ≤ 9 then (2, n + u) else (1, n)
          | none => (1, n)
        else (1, n)
termination_by ts => ts.length
decreasing_by
  all_goals
    have := length_dropAnd ts.tail
    have := List.length_tail (l := ts)
    simp only [List.length_cons]
    omega

variable {t : Tok} {ts : List Tok} {n s r u : ℕ}

theorem parse_nil : parse [] = (0, 0) := by rw [parse]

theorem parse_word (h : t.value? = none) : parse (t :: ts) = (0, 0) := by
  rw [parse, h]

theorem parse_scaled (h : t.value? = some n) (hs : scaleNext? ts = some s)
    (hr : first? (dropAnd ts.tail) = some r) (hlt : r < s) :
    parse (t :: ts) = (2 + andCount ts.tail + (parse (dropAnd ts.tail)).1,
      n * s + (parse (dropAnd ts.tail)).2) := by
  rw [parse, h]
  simp only [hs, hr, hlt, if_true]

theorem parse_scaled_alone (h : t.value? = some n) (hs : scaleNext? ts = some s)
    (hr : ∀ r, first? (dropAnd ts.tail) = some r → s ≤ r) : parse (t :: ts) = (2, n * s) := by
  rw [parse, h]
  simp only [hs]
  cases hf : first? (dropAnd ts.tail) with
  | none => rfl
  | some r =>
    have hle := Nat.not_lt.2 (hr r hf)
    simp only [hle, if_false]

theorem parse_unit (h : t.value? = some n) (hs : scaleNext? ts = none) (ht : Tens n)
    (hu : first? ts = some u) (hrange : 1 ≤ u ∧ u ≤ 9) : parse (t :: ts) = (2, n + u) := by
  rw [parse, h]
  simp only [hs, hu]
  rw [if_pos ht, if_pos hrange]

theorem parse_alone (h : t.value? = some n) (hs : scaleNext? ts = none)
    (hu : Tens n → ∀ u, first? ts = some u → ¬ (1 ≤ u ∧ u ≤ 9)) : parse (t :: ts) = (1, n) := by
  rw [parse, h]
  simp only [hs]
  by_cases ht : Tens n
  · rw [if_pos ht]
    cases hf : first? ts with
    | none => rfl
    | some u =>
      dsimp only
      rw [if_neg (hu ht u hf)]
  · rw [if_neg ht]

/-! ### How far and how high it reads -/

theorem parse_cases (t : Tok) (ts : List Tok) :
    (t.value? = none ∧ parse (t :: ts) = (0, 0)) ∨
    (∃ n s r, t.value? = some n ∧ scaleNext? ts = some s ∧ first? (dropAnd ts.tail) = some r ∧
      r < s ∧ parse (t :: ts) = (2 + andCount ts.tail + (parse (dropAnd ts.tail)).1,
        n * s + (parse (dropAnd ts.tail)).2)) ∨
    (∃ n s, t.value? = some n ∧ scaleNext? ts = some s ∧ parse (t :: ts) = (2, n * s)) ∨
    (∃ n u, t.value? = some n ∧ Tens n ∧ first? ts = some u ∧ (1 ≤ u ∧ u ≤ 9) ∧
      scaleNext? ts = none ∧ parse (t :: ts) = (2, n + u)) ∨
    (∃ n, t.value? = some n ∧ scaleNext? ts = none ∧
      (Tens n → ∀ u, first? ts = some u → ¬ (1 ≤ u ∧ u ≤ 9)) ∧ parse (t :: ts) = (1, n)) := by
  cases hv : t.value? with
  | none => exact .inl ⟨rfl, parse_word hv⟩
  | some n =>
    refine .inr ?_
    cases hs : scaleNext? ts with
    | some s =>
      by_cases hr : ∃ r, first? (dropAnd ts.tail) = some r ∧ r < s
      · obtain ⟨r, hr, hlt⟩ := hr
        exact .inl ⟨n, s, r, rfl, rfl, hr, hlt, parse_scaled hv hs hr hlt⟩
      · refine .inr (.inl ⟨n, s, rfl, rfl, parse_scaled_alone hv hs (fun r h => ?_)⟩)
        exact Nat.not_lt.1 (fun hlt => hr ⟨r, h, hlt⟩)
    | none =>
      by_cases hu : Tens n ∧ ∃ u, first? ts = some u ∧ (1 ≤ u ∧ u ≤ 9)
      · obtain ⟨ht, u, hu, hrange⟩ := hu
        exact .inr (.inr (.inl ⟨n, u, rfl, ht, hu, hrange, rfl, parse_unit hv hs ht hu hrange⟩))
      · have halone : Tens n → ∀ u, first? ts = some u → ¬ (1 ≤ u ∧ u ≤ 9) :=
          fun ht u h hrange => hu ⟨ht, u, h, hrange⟩
        exact .inr (.inr (.inr ⟨n, rfl, rfl, halone, parse_alone hv hs halone⟩))

theorem length_pos_of_scale (h : scaleNext? ts = some s) : 0 < ts.length := by
  cases ts with
  | nil => cases h
  | cons t ts => exact Nat.succ_pos _

theorem length_pos_of_first (h : first? ts = some u) : 0 < ts.length := by
  cases ts with
  | nil => cases h
  | cons t ts => exact Nat.succ_pos _

theorem parse_le_length (ts : List Tok) : (parse ts).1 ≤ ts.length := by
  induction hl : ts.length using Nat.strong_induction_on generalizing ts with
  | _ l ih =>
    cases ts with
    | nil =>
      rw [parse_nil]
      exact Nat.zero_le _
    | cons t ts =>
      simp only [List.length_cons] at hl
      rcases parse_cases t ts with ⟨_, h⟩ | ⟨n, s, r, _, hs, hr, _, h⟩ | ⟨n, s, _, hs, h⟩ |
        ⟨n, u, _, _, hu, _, _, h⟩ | ⟨n, _, _, _, h⟩
      · rw [h]
        exact Nat.zero_le _
      · have hpos := length_pos_of_scale hs
        have hdrop := length_dropAnd ts.tail
        have htail := List.length_tail (l := ts)
        have hrest := ih (dropAnd ts.tail).length (by omega) (dropAnd ts.tail) rfl
        rw [h]
        simp only
        omega
      · have hpos := length_pos_of_scale hs
        rw [h]
        simp only
        omega
      · have hpos := length_pos_of_first hu
        rw [h]
        simp only
        omega
      · rw [h]
        simp only
        omega

theorem parse_pos (h : t.value? = some n) : 0 < (parse (t :: ts)).1 := by
  rcases parse_cases t ts with ⟨hv, _⟩ | ⟨_, _, _, _, _, _, _, h⟩ | ⟨_, _, _, _, h⟩ |
    ⟨_, _, _, _, _, _, _, h⟩ | ⟨_, _, _, _, h⟩
  · rw [hv] at h
    cases h
  · rw [h]
    simp only
    omega
  · rw [h]
    exact Nat.two_pos
  · rw [h]
    exact Nat.two_pos
  · rw [h]
    exact Nat.one_pos

theorem value?_le (h : t.value? = some n) : n ≤ 1000000 := by
  cases t with
  | zero w => exact Option.some.inj h ▸ Nat.zero_le _
  | unit u =>
    have hn : u.val + 1 = n := Option.some.inj h
    omega
  | teen m =>
    have hn : m.val + 10 = n := Option.some.inj h
    omega
  | tens m =>
    have hn : 10 * (m.val + 2) = n := Option.some.inj h
    omega
  | hundred => exact Option.some.inj h ▸ (by norm_num)
  | thousand => exact Option.some.inj h ▸ (by norm_num)
  | million => exact Option.some.inj h ▸ le_rfl
  | oneHundred => exact Option.some.inj h ▸ (by norm_num)
  | oneThousand => exact Option.some.inj h ▸ (by norm_num)
  | and => cases h
  | article => cases h

theorem scaleNext?_le (h : scaleNext? ts = some s) : s ≤ 1000000 := by
  cases ts with
  | nil => cases h
  | cons t ts =>
    change t.scale? = some s at h
    cases t with
    | hundred => exact Option.some.inj h ▸ (by norm_num)
    | thousand => exact Option.some.inj h ▸ (by norm_num)
    | million => exact Option.some.inj h ▸ le_rfl
    | _ => cases h

theorem parse_value_le {b : ℕ} (hb : ∀ m k : ℕ, m ≤ 1000000 → k ≤ 1000000 → m * k + m + 9 ≤ b)
    (ts : List Tok) : (parse ts).2 ≤ ts.length * b := by
  induction hl : ts.length using Nat.strong_induction_on generalizing ts with
  | _ l ih =>
    cases ts with
    | nil =>
      rw [parse_nil]
      exact Nat.zero_le _
    | cons t ts =>
      have hlen : ts.length + 1 = l := hl
      have hone : b ≤ l * b := Nat.le_mul_of_pos_left b (by omega)
      rcases parse_cases t ts with ⟨_, h⟩ | ⟨n, s, r, hv, hs, hr, _, h⟩ | ⟨n, s, hv, hs, h⟩ |
        ⟨n, u, hv, _, hu, hrange, _, h⟩ | ⟨n, hv, _, _, h⟩
      · rw [h]
        exact Nat.zero_le _
      · have hdrop := length_dropAnd ts.tail
        have htail := List.length_tail (l := ts)
        have hrest := ih (dropAnd ts.tail).length (by omega) (dropAnd ts.tail) rfl
        have hmul : (dropAnd ts.tail).length * b + b ≤ l * b := by
          rw [← Nat.succ_mul]
          exact Nat.mul_le_mul_right b (by omega)
        have hprod := hb n s (value?_le hv) (scaleNext?_le hs)
        rw [h]
        change n * s + (parse (dropAnd ts.tail)).2 ≤ _
        omega
      · have hprod := hb n s (value?_le hv) (scaleNext?_le hs)
        rw [h]
        change n * s ≤ _
        omega
      · have hprod := hb n 0 (value?_le hv) (Nat.zero_le _)
        rw [h]
        change n + u ≤ _
        omega
      · have hprod := hb n 0 (value?_le hv) (Nat.zero_le _)
        rw [h]
        change n ≤ _
        omega

/-! ## The loop over them -/

def digits (n : ℕ) : String := .ofList (Nat.toDigits 10 n)

theorem digits_injective : Function.Injective digits := by
  intro m n h
  have hd : Nat.toDigits 10 m = Nat.toDigits 10 n := String.ofList_injective h
  rw [← Nat.ofDigitChars_toDigits (b := 10) (n := m) (by decide) (by decide), hd,
    Nat.ofDigitChars_toDigits (by decide) (by decide)]

def Tok.alone (t : Tok) : String :=
  match t.value? with
  | some n => digits n
  | none => t.spell

def read : ℕ → List Tok → List String
  | _, [] => []
  | skip + 1, _ :: ts => read skip ts
  | 0, t :: ts =>
    if (parse (t :: ts)).1 = 0 then t.spell :: read 0 ts
    else digits (parse (t :: ts)).2 :: read ((parse (t :: ts)).1 - 1) ts

theorem read_drop (k : ℕ) (ts : List Tok) : read k ts = read 0 (ts.drop k) := by
  induction ts generalizing k with
  | nil =>
    rw [List.drop_nil]
    cases k <;> rfl
  | cons t ts ih =>
    cases k with
    | zero => rfl
    | succ k => exact ih k

theorem read_word (h : t.value? = none) : read 0 (t :: ts) = Tok.alone t :: read 0 ts := by
  rw [read, parse_word h, if_pos rfl]
  unfold Tok.alone
  rw [h]

theorem read_number (h : t.value? = some n) : read 0 (t :: ts) =
    digits (parse (t :: ts)).2 :: read 0 ((t :: ts).drop (parse (t :: ts)).1) := by
  have hpos : 0 < (parse (t :: ts)).1 := parse_pos h
  rw [read, if_neg (by omega), read_drop]
  obtain ⟨k, hk⟩ := Nat.exists_eq_succ_of_ne_zero (Nat.ne_of_gt hpos)
  rw [hk]
  rfl

theorem length_read_le (ts : List Tok) : (read 0 ts).length ≤ ts.length := by
  induction hl : ts.length using Nat.strong_induction_on generalizing ts with
  | _ l ih =>
    cases ts with
    | nil => exact Nat.zero_le _
    | cons t ts =>
      have hlen : ts.length + 1 = l := hl
      cases hv : t.value? with
      | none =>
        have hrest := ih ts.length (by omega) ts rfl
        rw [read_word hv, List.length_cons]
        omega
      | some n =>
        have hpos : 0 < (parse (t :: ts)).1 := parse_pos hv
        have hdrop : ((t :: ts).drop (parse (t :: ts)).1).length = l - (parse (t :: ts)).1 := by
          rw [List.length_drop, List.length_cons, hlen]
        have hrest := ih _ (by omega) _ hdrop
        rw [read_number hv, List.length_cons]
        omega

theorem read_ne_nil (h : ts ≠ []) : read 0 ts ≠ [] := by
  cases ts with
  | nil => exact absurd rfl h
  | cons t ts =>
    cases hv : t.value? with
    | none =>
      rw [read_word hv]
      exact List.cons_ne_nil _ _
    | some n =>
      rw [read_number hv]
      exact List.cons_ne_nil _ _

/-! ### Read whole -/

theorem read_of_whole (hne : ts ≠ []) (h : (parse ts).1 = ts.length) :
    read 0 ts = [digits (parse ts).2] := by
  cases ts with
  | nil => exact absurd rfl hne
  | cons t ts =>
    cases hv : t.value? with
    | none =>
      rw [parse_word hv] at h
      cases h
    | some n =>
      rw [read_number hv, h, List.drop_length]
      rfl

theorem two_le_length_read (h : (parse ts).1 < ts.length) (htwo : 2 ≤ ts.length) :
    2 ≤ (read 0 ts).length := by
  cases ts with
  | nil => cases h
  | cons t ts =>
    cases hv : t.value? with
    | none =>
      have hrest : ts ≠ [] := List.ne_nil_of_length_pos (Nat.le_of_succ_le_succ htwo)
      have hpos := List.length_pos_of_ne_nil (read_ne_nil hrest)
      rw [read_word hv, List.length_cons]
      omega
    | some n =>
      have hrest : (t :: ts).drop (parse (t :: ts)).1 ≠ [] := by
        intro hnil
        have hle := List.drop_eq_nil_iff.1 hnil
        omega
      have hpos := List.length_pos_of_ne_nil (read_ne_nil hrest)
      rw [read_number hv, List.length_cons]
      omega

/-! ### Left uncombined -/

def Joins (x y : Tok) : Prop :=
  (x.value?.isSome = true ∧ y.scale?.isSome = true) ∨
    (∃ n u, x.value? = some n ∧ Tens n ∧ y.value? = some u ∧ 1 ≤ u ∧ u ≤ 9)

theorem two_le_parse_of_scale (h : t.value? = some n) (hs : scaleNext? ts = some s) :
    2 ≤ (parse (t :: ts)).1 := by
  by_cases hr : ∃ r, first? (dropAnd ts.tail) = some r ∧ r < s
  · obtain ⟨r, hr, hlt⟩ := hr
    rw [parse_scaled h hs hr hlt]
    change 2 ≤ 2 + _ + _
    omega
  · have hno : ∀ r, first? (dropAnd ts.tail) = some r → s ≤ r :=
      fun r h => Nat.not_lt.1 (fun hlt => hr ⟨r, h, hlt⟩)
    rw [parse_scaled_alone h hs hno]

theorem two_le_parse {x y : Tok} (h : Joins x y) (ts : List Tok) :
    2 ≤ (parse (x :: y :: ts)).1 := by
  cases hs : y.scale? with
  | some s =>
    have hv : ∃ n, x.value? = some n := by
      rcases h with ⟨hv, _⟩ | ⟨n, _, hv, _⟩
      · exact Option.isSome_iff_exists.1 hv
      · exact ⟨n, hv⟩
    obtain ⟨n, hv⟩ := hv
    exact two_le_parse_of_scale hv hs
  | none =>
    rcases h with ⟨_, hscale⟩ | ⟨n, u, hv, ht, hu, hrange⟩
    · rw [hs] at hscale
      cases hscale
    · have hnext : scaleNext? (y :: ts) = none := hs
      rw [parse_unit hv hnext ht hu hrange]

def Apart (ts : List Tok) : Prop := ts.IsChain (fun x y => ¬ Joins x y)

theorem alone_of_value (h : t.value? = some n) : Tok.alone t = digits n := by
  unfold Tok.alone
  rw [h]

theorem read_of_apart (h : Apart ts) : read 0 ts = ts.map Tok.alone := by
  induction ts with
  | nil => rfl
  | cons t ts ih =>
    have hrest : Apart ts := h.tail
    cases hv : t.value? with
    | none => rw [read_word hv, ih hrest, List.map_cons]
    | some n =>
      have hhead : ∀ u us, ts = u :: us → ¬ Joins t u := by
        intro u us hts
        subst hts
        exact h.rel
      have hscale : scaleNext? ts = none := by
        cases ts with
        | nil => rfl
        | cons u us =>
          change u.scale? = none
          by_contra hne
          exact hhead u us rfl (.inl ⟨by rw [hv]; rfl, Option.isSome_iff_ne_none.2 hne⟩)
      have hunit : Tens n → ∀ u, first? ts = some u → ¬ (1 ≤ u ∧ u ≤ 9) := by
        intro ht u hu hrange
        cases ts with
        | nil => cases hu
        | cons w us => exact hhead w us rfl (.inr ⟨n, u, hv, ht, hu, hrange⟩)
      have hparse := parse_alone hv hscale hunit
      rw [read_number hv, hparse, List.drop_one, List.tail_cons, ih hrest, List.map_cons,
        alone_of_value hv]

theorem length_read_lt (h : ¬ Apart ts) : (read 0 ts).length < ts.length := by
  induction ts with
  | nil => exact absurd List.isChain_nil h
  | cons t ts ih =>
    by_cases hrest : Apart ts
    · -- the first token joins the second
      cases ts with
      | nil => exact absurd (List.isChain_singleton t) h
      | cons u us =>
        have hjoins : Joins t u := by
          by_contra hno
          exact h (List.isChain_cons_cons.2 ⟨hno, hrest⟩)
        have htwo := two_le_parse hjoins us
        have hvalue : ∃ n, t.value? = some n := by
          rcases hjoins with ⟨hv, _⟩ | ⟨n, _, hv, _⟩
          · exact Option.isSome_iff_exists.1 hv
          · exact ⟨n, hv⟩
        obtain ⟨n, hv⟩ := hvalue
        have hle := length_read_le ((t :: u :: us).drop (parse (t :: u :: us)).1)
        rw [List.length_drop] at hle
        rw [read_number hv, List.length_cons]
        simp only [List.length_cons] at hle ⊢
        omega
    · cases hv : t.value? with
      | none =>
        rw [read_word hv, List.length_cons, List.length_cons]
        exact Nat.succ_lt_succ (ih hrest)
      | some n =>
        by_cases hone : (parse (t :: ts)).1 = 1
        · rw [read_number hv, hone, List.drop_one, List.tail_cons, List.length_cons,
            List.length_cons]
          exact Nat.succ_lt_succ (ih hrest)
        · have hpos : 0 < (parse (t :: ts)).1 := parse_pos hv
          have hle := length_read_le ((t :: ts).drop (parse (t :: ts)).1)
          have hlen := parse_le_length (t :: ts)
          rw [List.length_drop] at hle
          rw [read_number hv, List.length_cons]
          simp only [List.length_cons] at hle hlen ⊢
          omega

end IeltsHub.NumberReading
