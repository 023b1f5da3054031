import IeltsHub.NumberReading

set_option autoImplicit false

/-!
# What the parser makes of a cardinal

The part of a cardinal before a scale word is read with that word only where it is one token. Tens
and units leave the scale word behind; hundreds take the scale of what follows them for its own.
-/
namespace IeltsHub.CardinalReading
open QtypesNormalizers CardinalWords NumberReading

/-! ## How a phrase comes out -/

inductive Outcome where
  | whole
  | misread
  | broken
  deriving DecidableEq

/-- How the part before a scale word stands to it. -/
inductive Lead where
  | direct
  | crossed
  | phrase
  | loose
  deriving DecidableEq

def Count.isOne : Count → Bool
  | .digit u => u = 0
  | .article => true

def Group.outcome : Group → Outcome
  | .hundreds h (some _) => if Count.isOne h then .broken else .whole
  | _ => .whole

def Below100.lead (s : Tok) : Below100 → Lead
  | .unit u => if u = 0 ∧ s = .thousand then .phrase else .direct
  | .teen _ | .tens _ => .direct
  | .compound _ _ _ => .loose

def Multiplier.lead (s : Tok) : Multiplier → Lead
  | .article => if s = .thousand then .phrase else .loose
  | .group (.below r) => Below100.lead s r
  | .group (.hundreds h none) => if Count.isOne h then .direct else .loose
  | .group (.hundreds h (some (_, r))) =>
    if Count.isOne h = false ∧ Below100.lead s r = .direct then .crossed else .loose

def Lead.before : Lead → Option Outcome → Outcome
  | .direct, none => .whole
  | .direct, some o => o
  | .crossed, some .broken => .broken
  | .crossed, _ => .misread
  | .phrase, none => .whole
  | .phrase, some _ => .broken
  | .loose, _ => .broken

def Thousands.outcome : Thousands → Outcome
  | .group g => Group.outcome g
  | .scaled m rest =>
    (Multiplier.lead .thousand m).before (rest.map (fun r => Group.outcome r.2))

def Cardinal.outcome : CardinalWords.Cardinal → Outcome
  | .zero _ => .whole
  | .small t => Thousands.outcome t
  | .scaled m rest =>
    (Multiplier.lead .million m).before (rest.map (fun r => Thousands.outcome r.2))

def Turns : Outcome → ℕ → List Tok → Prop
  | .whole, v, ts => parse ts = (ts.length, v)
  | .misread, v, ts => 2 ≤ ts.length ∧ ∃ w < v, parse ts = (ts.length, w)
  | .broken, _, ts => 2 ≤ ts.length ∧ (parse ts).1 < ts.length

/-! ## The tokens of a cardinal -/

section
variable {w v : Word} {ws : List Word} {t s : Tok}

theorem phrase?_eq_none (h : ¬ (w = .plain (.unit 0) ∨ w = .plain .article)) (v : Word) :
    phrase? w v = none := if_neg h

theorem tokens_apart (h : phrase? w v = none) (ws : List Word) :
    tokens (w :: v :: ws) = w.toks ++ tokens (v :: ws) := by
  unfold tokens
  rw [merge, h]
  rfl

theorem tokens_cons (h : ¬ (w = .plain (.unit 0) ∨ w = .plain .article)) (ws : List Word) :
    tokens (w :: ws) = w.toks ++ tokens ws := by
  cases ws with
  | nil => rfl
  | cons v ws => exact tokens_apart (phrase?_eq_none h v) ws

theorem tokens_phrase (h : phrase? w v = some t) (ws : List Word) :
    tokens (w :: v :: ws) = t :: tokens ws := by
  unfold tokens
  rw [merge, h]
  rfl

def andToks (b : Bool) : List Tok := if b then [.and] else []

theorem tokens_and (b : Bool) (ws : List Word) :
    tokens (andWords b ++ ws) = andToks b ++ tokens ws := by
  cases b with
  | false => rfl
  | true => exact tokens_cons (by decide) ws

def Count.toks : Count → List Tok
  | .digit u => if u = 0 then [.oneHundred] else [.unit u, .hundred]
  | .article => [.oneHundred]

theorem tokens_hundred (h : Count) (ws : List Word) :
    tokens (h.words ++ .plain .hundred :: ws) = Count.toks h ++ tokens ws := by
  cases h with
  | article => exact tokens_phrase (by decide) ws
  | digit u =>
    change tokens (.plain (.unit u) :: .plain .hundred :: ws) = _
    by_cases hu : u = 0
    · subst hu
      exact tokens_phrase (by decide) ws
    · have hplain : ¬ (Word.plain (.unit u) = .plain (.unit 0) ∨
          Word.plain (.unit u) = .plain .article) := by simp [hu]
      have htoks : Count.toks (.digit u) = [.unit u, .hundred] := if_neg hu
      rw [tokens_cons hplain, tokens_cons (by decide), htoks]
      rfl

theorem count_cases (h : Count) :
    (Count.isOne h = true ∧ Count.toks h = [.oneHundred] ∧ h.value = 1) ∨
    (∃ u : Fin 9, Count.isOne h = false ∧ Count.toks h = [.unit u, .hundred] ∧
      h.value = u + 1) := by
  cases h with
  | article => exact .inl ⟨rfl, rfl, rfl⟩
  | digit u =>
    by_cases hu : u = 0
    · subst hu
      exact .inl ⟨rfl, rfl, rfl⟩
    · exact .inr ⟨u, by simp [Count.isOne, hu], if_neg hu, rfl⟩

def Below100.toks : Below100 → List Tok
  | .unit u => [.unit u]
  | .teen n => [.teen n]
  | .tens t => [.tens t]
  | .compound t u _ => [.tens t, .unit u]

theorem tokens_below (r : Below100) : tokens r.words = Below100.toks r := by
  cases r with
  | compound t u hyphen =>
    cases hyphen with
    | true => rfl
    | false =>
      change tokens [.plain (.tens t), .plain (.unit u)] = _
      rw [tokens_cons (by simp)]
      rfl
  | _ => rfl

theorem tokens_below_scale (hs : s = .thousand ∨ s = .million) (r : Below100) (ws : List Word) :
    (Below100.lead s r = .direct ∧ ∃ x : Tok, x.value? = some r.value ∧ x.scale? = none ∧
      tokens (r.words ++ .plain s :: ws) = x :: s :: tokens ws) ∨
    (Below100.lead s r = .phrase ∧ s = .thousand ∧ r.value = 1 ∧
      tokens (r.words ++ .plain s :: ws) = .oneThousand :: tokens ws) ∨
    (Below100.lead s r = .loose ∧ ∃ t : Fin 8,
      (∃ u : Fin 9, tokens (r.words ++ .plain s :: ws) = .tens t :: .unit u :: s :: tokens ws) ∨
      tokens (r.words ++ .plain s :: ws) = .tens t :: .oneThousand :: tokens ws) := by
  have hscale : ∀ ws, tokens (.plain s :: ws) = s :: tokens ws := by
    intro ws
    rcases hs with rfl | rfl
    · exact tokens_cons (by decide) ws
    · exact tokens_cons (by decide) ws
  have hunit : ∀ u : Fin 9, ¬ (u = 0 ∧ s = .thousand) →
      tokens (.plain (.unit u) :: .plain s :: ws) = .unit u :: s :: tokens ws := by
    intro u hu
    have hnone : phrase? (.plain (.unit u)) (.plain s) = none := by
      rcases hs with rfl | rfl
      · have hu : u ≠ 0 := fun h => hu ⟨h, rfl⟩
        exact phrase?_eq_none (by simp [hu]) _
      · simp [phrase?]
    rw [tokens_apart hnone, hscale]
    rfl
  cases r with
  | unit u =>
    by_cases hu : u = 0 ∧ s = .thousand
    · refine .inr (.inl ⟨if_pos hu, hu.2, ?_, ?_⟩)
      · rw [hu.1]
        rfl
      · obtain ⟨rfl, rfl⟩ := hu
        exact tokens_phrase (by decide) ws
    · exact .inl ⟨if_neg hu, .unit u, rfl, rfl, hunit u hu⟩
  | teen n =>
    refine .inl ⟨rfl, .teen n, rfl, rfl, ?_⟩
    change tokens (.plain (.teen n) :: .plain s :: ws) = _
    rw [tokens_cons (by simp), hscale]
    rfl
  | tens t =>
    refine .inl ⟨rfl, .tens t, rfl, rfl, ?_⟩
    change tokens (.plain (.tens t) :: .plain s :: ws) = _
    rw [tokens_cons (by simp), hscale]
    rfl
  | compound t u hyphen =>
    refine .inr (.inr ⟨rfl, t, ?_⟩)
    cases hyphen with
    | true =>
      refine .inl ⟨u, ?_⟩
      change tokens (.compound t u :: .plain s :: ws) = _
      rw [tokens_cons (by simp), hscale]
      rfl
    | false =>
      change (∃ u', tokens (.plain (.tens t) :: .plain (.unit u) :: .plain s :: ws) = _) ∨
        tokens (.plain (.tens t) :: .plain (.unit u) :: .plain s :: ws) = _
      rw [tokens_cons (by simp)]
      by_cases hu : u = 0 ∧ s = .thousand
      · obtain ⟨rfl, rfl⟩ := hu
        refine .inr ?_
        rw [tokens_phrase (t := .oneThousand) (by decide)]
        rfl
      · exact .inl ⟨u, by rw [hunit u hu]; rfl⟩

end

/-! ## A scale word and what is below it -/

section
variable {s x : Tok} {n k a v : ℕ} {L X : List Tok} {o : Option Outcome}

/-- The tokens begin with a number below the bound, not with a scale word. -/
structure Numeral (bound : ℕ) (L : List Tok) : Prop where
  first : ∃ r, first? L = some r ∧ r < bound
  noScale : scaleNext? L = none

theorem dropAnd_of_first {r : ℕ} (h : first? L = some r) (b : Bool) :
    dropAnd (andToks b ++ L) = L ∧ andCount (andToks b ++ L) = (andToks b).length := by
  cases b with
  | true => exact ⟨rfl, rfl⟩
  | false =>
    cases L with
    | nil => cases h
    | cons t ts =>
      cases t with
      | and => cases h
      | _ => exact ⟨rfl, rfl⟩

theorem scaleNext?_and (h : scaleNext? L = none) (b : Bool) :
    scaleNext? (andToks b ++ L) = none := by
  cases b with
  | true => rfl
  | false => exact h

theorem Numeral.mono {m : ℕ} (h : Numeral n L) (hle : n ≤ m) : Numeral m L := by
  obtain ⟨⟨r, hr, hlt⟩, hscale⟩ := h
  exact ⟨⟨r, hr, Nat.lt_of_lt_of_le hlt hle⟩, hscale⟩

theorem Numeral.length_pos (h : Numeral n L) : 0 < L.length := by
  obtain ⟨⟨r, hr, _⟩, _⟩ := h
  exact length_pos_of_first hr

theorem parse_over (hx : x.value? = some n) (hs : s.scale? = some k) (hL : Numeral k L)
    (b : Bool) : parse (x :: s :: (andToks b ++ L)) =
      (2 + (andToks b).length + (parse L).1, n * k + (parse L).2) := by
  obtain ⟨⟨r, hr, hlt⟩, _⟩ := hL
  have hdrop := dropAnd_of_first hr b
  have hnext : scaleNext? (s :: (andToks b ++ L)) = some k := hs
  have hfirst : first? (dropAnd (s :: (andToks b ++ L)).tail) = some r := by
    rw [List.tail_cons, hdrop.1, hr]
  rw [parse_scaled hx hnext hfirst hlt, List.tail_cons, hdrop.1, hdrop.2]

theorem parse_over_end (hx : x.value? = some n) (hs : s.scale? = some k) :
    parse [x, s] = (2, n * k) := by
  have hnext : scaleNext? [s] = some k := hs
  exact parse_scaled_alone hx hnext (fun r h => by cases h)

theorem parse_over_big (hx : x.value? = some n) (hs : s.scale? = some k) {r : ℕ}
    (hr : first? L = some r) (hle : k ≤ r) (b : Bool) :
    parse (x :: s :: (andToks b ++ L)) = (2, n * k) := by
  have hnext : scaleNext? (s :: (andToks b ++ L)) = some k := hs
  apply parse_scaled_alone hx hnext
  intro r' h
  rw [List.tail_cons, (dropAnd_of_first hr b).1, hr] at h
  exact Option.some.inj h ▸ hle

theorem parse_past (hx : x.value? = some n) (ht : ¬ Tens n) (hL : scaleNext? L = none) (b : Bool) :
    parse (x :: (andToks b ++ L)) = (1, n) :=
  parse_alone hx (scaleNext?_and hL b) (fun h => absurd h ht)

/-- What stands behind a scale word: nothing, or a numeral below it. -/
inductive Tail (k : ℕ) : List Tok → Option Outcome → ℕ → Prop
  | none : Tail k [] none 0
  | some (b : Bool) {L : List Tok} {o : Outcome} {v : ℕ} : Numeral k L → Turns o v L →
      Tail k (andToks b ++ L) (some o) v

theorem direct_turns (hx : x.value? = some n) (hs : s.scale? = some k) (h : Tail k X o v) :
    Turns (Lead.before .direct o) (n * k + v) (x :: s :: X) := by
  cases h with
  | none => exact parse_over_end hx hs
  | @some b L o v hL hturns =>
    have hparse := parse_over hx hs hL b
    have hlen : (x :: s :: (andToks b ++ L)).length = 2 + (andToks b).length + L.length := by
      simp only [List.length_cons, List.length_append]
      omega
    cases o with
    | whole =>
      change parse L = _ at hturns
      change parse _ = _
      rw [hparse, hturns, hlen]
    | misread =>
      obtain ⟨_, w, hw, hturns⟩ := hturns
      refine ⟨by omega, n * k + w, Nat.add_lt_add_left hw _, ?_⟩
      rw [hparse, hturns, hlen]
    | broken =>
      refine ⟨by omega, ?_⟩
      rw [hparse, hlen]
      exact Nat.add_lt_add_left hturns.2 _

theorem crossed_turns {d : Tok} (hd : d.value? = some a) (ha : 1 ≤ a) (hx : x.value? = some n)
    (hn : n < 100) (hxs : x.scale? = none) (hs : s.scale? = some k) (hk : 2 ≤ k)
    (h : Tail k X o v) (b : Bool) :
    Turns (Lead.before .crossed o) ((a * 100 + n) * k + v)
      (d :: .hundred :: (andToks b ++ x :: s :: X)) := by
  have hnumeral : Numeral 100 (x :: s :: X) := ⟨⟨n, hx, hn⟩, hxs⟩
  have hparse := parse_over hd (show Tok.scale? .hundred = some 100 from rfl) hnumeral b
  have hlen : (d :: .hundred :: (andToks b ++ x :: s :: X)).length =
      2 + (andToks b).length + (x :: s :: X).length := by
    simp only [List.length_cons, List.length_append]
    omega
  have hless : ∀ w ≤ v, a * 100 + (n * k + w) < (a * 100 + n) * k + v := by
    intro w hw
    have hhundreds : a * 100 < a * 100 * k := by
      calc a * 100 < a * 100 * 2 := by omega
        _ ≤ a * 100 * k := Nat.mul_le_mul_left _ hk
    rw [Nat.add_mul]
    omega
  have hturns := direct_turns hx hs h
  cases h with
  | none =>
    change parse _ = _ at hturns
    refine ⟨by omega, a * 100 + (n * k + 0), hless 0 le_rfl, ?_⟩
    rw [hparse, hturns, hlen]
  | @some b' L o v hL hrest =>
    cases o with
    | whole =>
      change parse _ = _ at hturns
      refine ⟨by omega, a * 100 + (n * k + v), hless v le_rfl, ?_⟩
      rw [hparse, hturns, hlen]
    | misread =>
      obtain ⟨_, w, hw, hturns⟩ := hturns
      refine ⟨by omega, a * 100 + w, ?_, ?_⟩
      · have hbound := hless v le_rfl
        omega
      · rw [hparse, hturns, hlen]
    | broken =>
      refine ⟨by omega, ?_⟩
      rw [hparse, hlen]
      exact Nat.add_lt_add_left hturns.2 _

theorem phrase_turns (hx : x.value? = some n) (ht : ¬ Tens n) (h : Tail k X o v) :
    Turns (Lead.before .phrase o) (n + v) (x :: X) := by
  cases h with
  | none => exact parse_past hx ht (L := []) rfl false
  | @some b L o v hL hrest =>
    have hparse := parse_past hx ht hL.noScale b
    have hpos := hL.length_pos
    change 2 ≤ _ ∧ (parse _).1 < _
    rw [hparse, List.length_cons, List.length_append]
    omega

theorem not_tens_hundred : ¬ Tens 100 := by decide

theorem not_tens_thousand : ¬ Tens 1000 := by decide

/-! ### The part before a scale word -/

variable {ws : List Word}

theorem value?_scale (hs : s = .thousand ∨ s = .million) (hk : s.scale? = some k) :
    s.value? = some k ∧ 1000 ≤ k ∧ k ≤ 1000000 := by
  rcases hs with rfl | rfl
  · exact Option.some.inj hk ▸ ⟨rfl, by decide, by decide⟩
  · exact Option.some.inj hk ▸ ⟨rfl, by decide, by decide⟩

theorem tokens_scale (hs : s = .thousand ∨ s = .million) (ws : List Word) :
    tokens (.plain s :: ws) = s :: tokens ws := by
  rcases hs with rfl | rfl
  · exact tokens_cons (by decide) ws
  · exact tokens_cons (by decide) ws

theorem below_turns (hs : s = .thousand ∨ s = .million) (hk : s.scale? = some k) (r : Below100)
    (h : Tail k (tokens ws) o v) :
    Turns ((Below100.lead s r).before o) (r.value * k + v) (tokens (r.words ++ .plain s :: ws)) ∧
      scaleNext? (tokens (r.words ++ .plain s :: ws)) = none ∧
      ∃ f, first? (tokens (r.words ++ .plain s :: ws)) = some f ∧
        (f < 100 ∨ (Below100.lead s r = .phrase ∧ f = 1000)) := by
  have hvalue := r.value_bounds
  rcases tokens_below_scale hs r ws with ⟨hlead, x, hx, hxs, htokens⟩ |
    ⟨hlead, hthousand, hone, htokens⟩ | ⟨hlead, t, ⟨u, htokens⟩ | htokens⟩
  · rw [hlead, htokens]
    exact ⟨direct_turns hx hk h, hxs, r.value, hx, .inl hvalue.2⟩
  · have hx : Tok.value? .oneThousand = some 1000 := rfl
    have hkk : k = 1000 := by
      rw [hthousand] at hk
      exact (Option.some.inj hk).symm
    rw [hlead, htokens, hone, hkk, Nat.one_mul]
    rw [hkk] at h
    exact ⟨phrase_turns hx not_tens_thousand h, rfl, 1000, rfl, .inr ⟨rfl, rfl⟩⟩
  · have hx : Tok.value? (.tens t) = some (10 * (t.val + 2)) := rfl
    have htens : Tens (10 * (t.val + 2)) := by
      unfold Tens
      omega
    have hfirst : first? (.unit u :: s :: tokens ws) = some (u.val + 1) := rfl
    have hparse := parse_unit hx rfl htens hfirst (by omega)
    rw [hlead, htokens]
    refine ⟨?_, rfl, 10 * (t.val + 2), rfl, .inl (by omega)⟩
    change 2 ≤ _ ∧ (parse _).1 < _
    rw [hparse]
    simp only [List.length_cons]
    omega
  · have hx : Tok.value? (.tens t) = some (10 * (t.val + 2)) := rfl
    have hscale : scaleNext? (.oneThousand :: tokens ws) = none := rfl
    have hparse := parse_alone hx hscale (by
      intro _ u hu hrange
      have hu : (1000 : ℕ) = u := Option.some.inj hu
      omega)
    rw [hlead, htokens]
    refine ⟨?_, rfl, 10 * (t.val + 2), rfl, .inl (by omega)⟩
    change 2 ≤ _ ∧ (parse _).1 < _
    rw [hparse]
    simp only [List.length_cons]
    omega

theorem group_turns (hs : s = .thousand ∨ s = .million) (hk : s.scale? = some k) (g : Group)
    (h : Tail k (tokens ws) o v) :
    Turns ((Multiplier.lead s (.group g)).before o) (g.value * k + v)
        (tokens (g.words ++ .plain s :: ws)) ∧
      Numeral 1000000 (tokens (g.words ++ .plain s :: ws)) := by
  obtain ⟨hvalue, hthousand, _⟩ := value?_scale hs hk
  cases g with
  | below r =>
    obtain ⟨hturns, hscale, f, hf, hbound⟩ := below_turns hs hk r h
    exact ⟨hturns, ⟨f, hf, by omega⟩, hscale⟩
  | hundreds c rest =>
    have hbound := c.value_bounds
    cases rest with
    | none =>
      have hwords : (Group.hundreds c none).words ++ .plain s :: ws =
          c.words ++ .plain .hundred :: (.plain s :: ws) := by
        simp only [Group.words, List.append_assoc, List.cons_append, List.nil_append]
      rw [hwords, tokens_hundred, tokens_scale hs]
      change Turns ((if Count.isOne c then Lead.direct else .loose).before o)
        (c.value * 100 * k + v) _ ∧ _
      rcases count_cases c with ⟨hone, htoks, hc⟩ | ⟨u, hone, htoks, hc⟩
      · have hx : Tok.value? .oneHundred = some 100 := rfl
        rw [hone, htoks, hc]
        exact ⟨direct_turns hx hk h, ⟨100, rfl, by omega⟩, rfl⟩
      · have hx : Tok.value? (.unit u) = some (u.val + 1) := rfl
        have hparse := parse_over_big (L := s :: tokens ws) hx
          (show Tok.scale? .hundred = some 100 from rfl) hvalue (by omega) false
        rw [hone, htoks]
        refine ⟨?_, ⟨u.val + 1, rfl, by omega⟩, rfl⟩
        change 2 ≤ _ ∧ (parse (.unit u :: .hundred :: (andToks false ++ s :: tokens ws))).1 < _
        rw [hparse]
        simp only [List.cons_append, List.length_cons, List.nil_append]
        omega
    | some rest =>
      obtain ⟨b, r⟩ := rest
      obtain ⟨hturns, hscale, f, hf, hfirst⟩ := below_turns hs hk r h
      have hlength := length_pos_of_first hf
      have hwords : (Group.hundreds c (some (b, r))).words ++ .plain s :: ws =
          c.words ++ .plain .hundred :: (andWords b ++ (r.words ++ .plain s :: ws)) := by
        simp only [Group.words, List.append_assoc, List.cons_append]
      rw [hwords, tokens_hundred, tokens_and]
      change Turns ((if Count.isOne c = false ∧ Below100.lead s r = .direct then Lead.crossed
        else .loose).before o) ((c.value * 100 + r.value) * k + v) _ ∧ _
      rcases count_cases c with ⟨hone, htoks, hc⟩ | ⟨u, hone, htoks, hc⟩
      · have hx : Tok.value? .oneHundred = some 100 := rfl
        have hparse := parse_past hx not_tens_hundred hscale b
        rw [if_neg (by simp [hone]), htoks]
        refine ⟨?_, ⟨100, rfl, by omega⟩, rfl⟩
        change 2 ≤ _ ∧ (parse (.oneHundred :: (andToks b ++ _))).1 < _
        rw [hparse]
        simp only [List.cons_append, List.length_cons, List.nil_append, List.length_append]
        omega
      · have hx : Tok.value? (.unit u) = some (u.val + 1) := rfl
        have hhundred : Tok.scale? .hundred = some 100 := rfl
        rw [htoks]
        refine ⟨?_, ⟨u.val + 1, rfl, by omega⟩, rfl⟩
        rcases tokens_below_scale hs r ws with ⟨hlead, x, hxv, hxs, htokens⟩ |
          ⟨hlead, _, _, htokens⟩ | ⟨hlead, _⟩
        · rw [if_pos ⟨hone, hlead⟩, htokens, hc]
          exact crossed_turns hx (by omega) hxv r.value_bounds.2 hxs hk (by omega) h b
        · have hparse := parse_over_big (L := .oneThousand :: tokens ws) hx hhundred
            (show first? _ = some 1000 from rfl) (by decide) b
          rw [if_neg (by simp [hlead]), htokens]
          change 2 ≤ _ ∧ (parse (.unit u :: .hundred :: (andToks b ++ _))).1 < _
          rw [hparse]
          simp only [List.cons_append, List.length_cons, List.nil_append, List.length_append]
          omega
        · rw [hlead] at hturns hfirst
          have hsmall : f < 100 := by simpa using hfirst
          have hparse := parse_over hx hhundred ⟨⟨f, hf, hsmall⟩, hscale⟩ b
          have hbroken : (parse (tokens (r.words ++ .plain s :: ws))).1 <
              (tokens (r.words ++ .plain s :: ws)).length := hturns.2
          rw [if_neg (by simp [hlead])]
          change 2 ≤ _ ∧ (parse (.unit u :: .hundred :: (andToks b ++ _))).1 < _
          rw [hparse]
          simp only [List.cons_append, List.length_cons, List.nil_append, List.length_append]
          omega

theorem scaled_turns (hs : s = .thousand ∨ s = .million) (hk : s.scale? = some k)
    (m : Multiplier) (h : Tail k (tokens ws) o v) :
    Turns ((Multiplier.lead s m).before o) (m.value * k + v)
      (tokens (m.words ++ .plain s :: ws)) := by
  cases m with
  | group g => exact (group_turns hs hk g h).1
  | article =>
    change Turns ((if s = .thousand then Lead.phrase else .loose).before o) (1 * k + v)
      (tokens (.plain .article :: .plain s :: ws))
    rcases hs with rfl | rfl
    · have hx : Tok.value? .oneThousand = some 1000 := rfl
      have hkk : 1000 = k := Option.some.inj hk
      subst hkk
      rw [if_pos rfl, tokens_phrase (t := .oneThousand) (by decide), Nat.one_mul]
      exact phrase_turns hx not_tens_thousand h
    · rw [if_neg (by decide), tokens_apart (by decide), tokens_scale (.inr rfl)]
      change 2 ≤ _ ∧ (parse (.article :: .million :: tokens ws)).1 < _
      rw [parse_word rfl]
      exact ⟨Nat.le_add_left _ _, Nat.succ_pos _⟩

/-! ### The whole -/

theorem tail_of_rest {α : Type} (words : α → List Word) (value : α → ℕ) (outcome : α → Outcome)
    (hturns : ∀ a, Turns (outcome a) (value a) (tokens (words a)))
    (hnumeral : ∀ a, Numeral k (tokens (words a))) (b : Bool) (a : α) :
    Tail k (tokens (andWords b ++ words a)) (some (outcome a)) (value a) := by
  rw [tokens_and]
  exact .some b (hnumeral a) (hturns a)

theorem group_end (g : Group) : Turns (Group.outcome g) g.value (tokens g.words) ∧
    Numeral 1000 (tokens g.words) := by
  have hbelow : ∀ r : Below100, parse (Below100.toks r) = ((Below100.toks r).length, r.value) ∧
      Numeral 100 (Below100.toks r) := by
    intro r
    cases r with
    | unit u =>
      exact ⟨parse_alone rfl rfl (fun _ _ h => by cases h), ⟨u.val + 1, rfl, by omega⟩, rfl⟩
    | teen n =>
      exact ⟨parse_alone rfl rfl (fun _ _ h => by cases h), ⟨n.val + 10, rfl, by omega⟩, rfl⟩
    | tens t =>
      exact ⟨parse_alone rfl rfl (fun _ _ h => by cases h), ⟨10 * (t.val + 2), rfl, by omega⟩, rfl⟩
    | compound t u hyphen =>
      have htens : Tens (10 * (t.val + 2)) := by
        unfold Tens
        omega
      exact ⟨parse_unit (n := 10 * (t.val + 2)) rfl rfl htens
        (show first? _ = some (u.val + 1) from rfl) (by omega),
        ⟨10 * (t.val + 2), rfl, by omega⟩, rfl⟩
  cases g with
  | below r =>
    change Turns .whole r.value (tokens r.words) ∧ Numeral 1000 (tokens r.words)
    rw [tokens_below]
    exact ⟨(hbelow r).1, (hbelow r).2.mono (by decide)⟩
  | hundreds c rest =>
    have hbound := c.value_bounds
    cases rest with
    | none =>
      change Turns .whole (c.value * 100) (tokens (c.words ++ [.plain .hundred])) ∧
        Numeral 1000 (tokens (c.words ++ [.plain .hundred]))
      rw [tokens_hundred]
      rcases count_cases c with ⟨_, htoks, hc⟩ | ⟨u, _, htoks, hc⟩
      · have hparse := parse_past (x := .oneHundred) (n := 100) (L := []) rfl not_tens_hundred rfl
          false
        change parse [.oneHundred] = _ at hparse
        rw [htoks]
        refine ⟨?_, ⟨100, rfl, by decide⟩, rfl⟩
        change parse [.oneHundred] = (1, c.value * 100)
        rw [hparse, hc]
      · have hparse := parse_over_end (x := .unit u) (n := u.val + 1) (s := .hundred) rfl rfl
        rw [htoks]
        refine ⟨?_, ⟨u.val + 1, rfl, by omega⟩, rfl⟩
        change parse [.unit u, .hundred] = (2, c.value * 100)
        rw [hparse, hc]
    | some rest =>
      obtain ⟨b, r⟩ := rest
      obtain ⟨hr, hnumeral⟩ := hbelow r
      have hlength := hnumeral.length_pos
      change Turns (if Count.isOne c then .broken else .whole) (c.value * 100 + r.value)
        (tokens (c.words ++ .plain .hundred :: (andWords b ++ r.words))) ∧
        Numeral 1000 (tokens (c.words ++ .plain .hundred :: (andWords b ++ r.words)))
      rw [tokens_hundred, tokens_and, tokens_below]
      rcases count_cases c with ⟨hone, htoks, hc⟩ | ⟨u, hone, htoks, hc⟩
      · have hparse := parse_past (x := .oneHundred) (n := 100) rfl not_tens_hundred
          hnumeral.noScale b
        rw [if_pos hone, htoks]
        refine ⟨?_, ⟨100, rfl, by decide⟩, rfl⟩
        change 2 ≤ _ ∧ (parse (.oneHundred :: (andToks b ++ Below100.toks r))).1 < _
        rw [hparse]
        simp only [List.cons_append, List.length_cons, List.nil_append, List.length_append]
        omega
      · have hparse := parse_over (x := .unit u) (n := u.val + 1) (s := .hundred) rfl rfl
          hnumeral b
        rw [if_neg (by simp [hone]), htoks]
        refine ⟨?_, ⟨u.val + 1, rfl, by omega⟩, rfl⟩
        change parse (.unit u :: .hundred :: (andToks b ++ Below100.toks r)) = _
        rw [hparse, hr, hc]
        simp only [List.cons_append, List.length_cons, List.nil_append, List.length_append,
          Prod.mk.injEq, and_true]
        omega

theorem thousands_end (t : Thousands) : Turns (Thousands.outcome t) t.value (tokens t.words) ∧
    Numeral 1000000 (tokens t.words) := by
  cases t with
  | group g =>
    have hle : 1000 ≤ 1000000 := by norm_num
    have hend := group_end g
    exact ⟨hend.1, hend.2.mono hle⟩
  | scaled m rest =>
    have hs : Tok.thousand = .thousand ∨ Tok.thousand = .million := .inl rfl
    have hk : Tok.scale? .thousand = some 1000 := rfl
    have htail : ∃ o v ws, Tail 1000 (tokens ws) o v ∧
        o = rest.map (fun r => Group.outcome r.2) ∧
        (Thousands.scaled m rest).value = m.value * 1000 + v ∧
        (Thousands.scaled m rest).words = m.words ++ .plain .thousand :: ws := by
      cases rest with
      | none => exact ⟨none, 0, [], .none, rfl, (Nat.add_zero _).symm, rfl⟩
      | some rest =>
        obtain ⟨b, g⟩ := rest
        exact ⟨some (Group.outcome g), g.value, andWords b ++ g.words,
          tail_of_rest Group.words Group.value Group.outcome (fun g => (group_end g).1)
            (fun g => (group_end g).2) b g, rfl, rfl, rfl⟩
    obtain ⟨o, v, ws, htail, ho, hv, hws⟩ := htail
    rw [hv, hws]
    refine ⟨?_, ?_⟩
    · change Turns ((Multiplier.lead .thousand m).before (rest.map (fun r => Group.outcome r.2)))
        _ _
      rw [← ho]
      exact scaled_turns hs hk m htail
    · cases m with
      | group g => exact (group_turns hs hk g htail).2
      | article =>
        change Numeral 1000000 (tokens (.plain .article :: .plain .thousand :: ws))
        rw [tokens_phrase (t := .oneThousand) (by decide)]
        exact ⟨⟨1000, rfl, by norm_num⟩, rfl⟩

theorem cardinal_turns (c : CardinalWords.Cardinal) :
    Turns (Cardinal.outcome c) c.value (tokens c.words) := by
  cases c with
  | zero w =>
    change parse [.zero w] = (1, 0)
    exact parse_alone rfl rfl (fun _ _ h => by cases h)
  | small t => exact (thousands_end t).1
  | scaled m rest =>
    have hs : Tok.million = .thousand ∨ Tok.million = .million := .inr rfl
    have hk : Tok.scale? .million = some 1000000 := rfl
    cases rest with
    | none =>
      have htail : Tail 1000000 (tokens []) none 0 := .none
      have hturns := scaled_turns hs hk m htail
      rw [Nat.add_zero] at hturns
      exact hturns
    | some rest =>
      obtain ⟨b, t⟩ := rest
      exact scaled_turns hs hk m (tail_of_rest Thousands.words Thousands.value Thousands.outcome
        (fun t => (thousands_end t).1) (fun t => (thousands_end t).2) b t)

end

end IeltsHub.CardinalReading
