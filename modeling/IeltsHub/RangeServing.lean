import IeltsHub.HttpRange

set_option autoImplicit false

/-!
# Serving a range

What RFC 9110 has a header ask for, what of it an object has, and the answer. A number of more
digits than the interpreter converts is the one thing the parser does not survive.
-/
namespace IeltsHub.RangeServing
open PyText HttpRange

/-! ## What is asked for -/

inductive RangeSpec where
  | between (first last : ℕ)
  | onwards (first : ℕ)
  | final (length : ℕ)
  deriving DecidableEq

def Numeral (cs : List Char) (n : ℕ) : Prop :=
  cs ≠ [] ∧ cs.all isDecimal = true ∧ valueOf cs = n

def Reads (header : Option String) (cs : List Char) : Prop :=
  ∃ text, header = some text ∧ (strip text).toList = cs

/-- The range a header asks for; one that ends before it begins asks for nothing. -/
inductive Requests (header : Option String) : RangeSpec → Prop
  | between {a b : List Char} {m n : ℕ} (h : Reads header ("bytes=".toList ++ a ++ '-' :: b))
      (ha : Numeral a m) (hb : Numeral b n) (hle : m ≤ n) : Requests header (.between m n)
  | onwards {a : List Char} {m : ℕ} (h : Reads header ("bytes=".toList ++ a ++ ['-']))
      (ha : Numeral a m) : Requests header (.onwards m)
  | final {b : List Char} {n : ℕ} (h : Reads header ("bytes=".toList ++ '-' :: b))
      (hb : Numeral b n) : Requests header (.final n)

def clamped (size : ℕ) : RangeSpec → Option (ℕ × ℕ)
  | .between m n => if m < size then some (m, min n (size - 1)) else none
  | .onwards m => if m < size then some (m, size - 1) else none
  | .final n => if 0 < n ∧ 0 < size then some (size - min n size, size - 1) else none

def bytesOf (object : List UInt8) (start stop : ℕ) : List UInt8 :=
  (object.drop start).take (stop + 1 - start)

/-- The three answers. -/
inductive Served (m : Media) (header : Option String) (r : Response) : Prop
  | whole (hnone : ∀ spec, ¬ Requests header spec) (hstatus : r.status = 200)
      (hbody : r.body = m.object)
      (hlength : ("Content-Length", toString r.body.length) ∈ r.headers)
  | unsatisfiable {spec : RangeSpec} (h : Requests header spec)
      (hnone : clamped m.object.length spec = none) (hstatus : r.status = 416)
      (hbody : r.body = [])
  | span {spec : RangeSpec} {start stop : ℕ} (h : Requests header spec)
      (hspan : clamped m.object.length spec = some (start, stop)) (hstatus : r.status = 206)
      (hle : start ≤ stop) (hlt : stop < m.object.length)
      (hbody : r.body = bytesOf m.object start stop)
      (hrange : ("Content-Range", s!"bytes {start}-{stop}/{m.object.length}") ∈ r.headers)
      (hlength : ("Content-Length", toString r.body.length) ∈ r.headers)

/-- Two runs of digits of which one is longer than the interpreter converts. -/
def LongNumeral (header : Option String) : Prop :=
  ∃ first last, Reads header ("bytes=".toList ++ first ++ '-' :: last) ∧
    first.all isDecimal = true ∧ last.all isDecimal = true ∧
      (maxStrDigits < first.length ∨ maxStrDigits < last.length)

section
variable {m : Media} {header : Option String} {first last cs : List Char} {n : ℕ}

/-! ## What the parser answers -/

theorem parseRange_of_reads (h : Reads header ("bytes=".toList ++ first ++ '-' :: last))
    (hfirst : first.all isDecimal = true) (hlast : last.all isDecimal = true) (size : ℕ) :
    parseRange header size = spanOf first last size := by
  obtain ⟨text, rfl, hstrip⟩ := h
  have hne : text ≠ "" := by
    rintro rfl
    cases hstrip
  unfold parseRange
  dsimp only
  rw [if_neg hne, hstrip, rangeMatch_eq_some.2 ⟨rfl, hfirst, hlast⟩]

theorem parseRange_of_not_reads (h : ∀ first last, first.all isDecimal = true →
    last.all isDecimal = true → ¬ Reads header ("bytes=".toList ++ first ++ '-' :: last))
    (size : ℕ) : parseRange header size = .ok none := by
  unfold parseRange
  cases header with
  | none => rfl
  | some text =>
    dsimp only
    split
    · rfl
    · cases hmatch : rangeMatch (strip text).toList with
      | none => rfl
      | some groups =>
        obtain ⟨htext, hfirst, hlast⟩ := rangeMatch_eq_some.1 hmatch
        exact absurd ⟨text, rfl, htext⟩ (h groups.1 groups.2 hfirst hlast)

theorem spanOf_empty (size : ℕ) : spanOf [] [] size = .ok none := rfl

theorem spanOf_final (hlast : last.all isDecimal = true) (hne : last ≠ []) (size : ℕ) :
    spanOf [] last size = if last.length ≤ maxStrDigits then
      .ok (some (max 0 ((size : ℤ) - min (valueOf last : ℤ) size), (size : ℤ) - 1))
    else .error .valueError := by
  unfold spanOf
  rw [if_neg (fun h => hne h.2), if_pos rfl, intOfText_digits hlast hne]
  split <;> rfl

theorem spanOf_onwards (hfirst : first.all isDecimal = true) (hne : first ≠ []) (size : ℕ) :
    spanOf first [] size = if first.length ≤ maxStrDigits then
      .ok (some ((valueOf first : ℤ), (size : ℤ) - 1))
    else .error .valueError := by
  unfold spanOf
  rw [if_neg (fun h => hne h.1), if_neg hne, intOfText_digits hfirst hne]
  split <;> rfl

theorem spanOf_between (hfirst : first.all isDecimal = true) (hne : first ≠ [])
    (hlast : last.all isDecimal = true) (hne' : last ≠ []) (size : ℕ) :
    spanOf first last size =
      if first.length ≤ maxStrDigits ∧ last.length ≤ maxStrDigits then
        .ok (if valueOf last < valueOf first then none
          else some ((valueOf first : ℤ), min (valueOf last : ℤ) ((size : ℤ) - 1)))
      else .error .valueError := by
  unfold spanOf
  rw [if_neg (fun h => hne h.1), if_neg hne, intOfText_digits hfirst hne,
    intOfText_digits hlast hne']
  by_cases hshort : first.length ≤ maxStrDigits
  · rw [if_pos hshort]
    change (if last = [] then _ else _) = _
    rw [if_neg hne']
    by_cases hshort' : last.length ≤ maxStrDigits
    · rw [if_pos hshort', if_pos ⟨hshort, hshort'⟩]
      change (if (valueOf last : ℤ) < (valueOf first : ℤ) then _ else _) = _
      by_cases hlt : valueOf last < valueOf first
      · rw [if_pos hlt, if_pos (by exact_mod_cast hlt)]
        rfl
      · rw [if_neg hlt, if_neg (by exact_mod_cast hlt)]
        rfl
    · have hlong : ¬ (first.length ≤ maxStrDigits ∧ last.length ≤ maxStrDigits) :=
        fun h => hshort' h.2
      rw [if_neg hshort', if_neg hlong]
      rfl
  · have hlong : ¬ (first.length ≤ maxStrDigits ∧ last.length ≤ maxStrDigits) :=
      fun h => hshort h.1
    rw [if_neg hshort, if_neg hlong]
    rfl

/-! ## What two runs of digits ask for -/

def asked (first last : List Char) : Option RangeSpec :=
  if first = [] then if last = [] then none else some (.final (valueOf last))
  else if last = [] then some (.onwards (valueOf first))
  else if valueOf last < valueOf first then none
  else some (.between (valueOf first) (valueOf last))

def extent (size : ℕ) : RangeSpec → ℤ × ℤ
  | .between m n => (m, min (n : ℤ) ((size : ℤ) - 1))
  | .onwards m => (m, (size : ℤ) - 1)
  | .final n => (max 0 ((size : ℤ) - min (n : ℤ) size), (size : ℤ) - 1)

theorem spanOf_eq (hfirst : first.all isDecimal = true) (hlast : last.all isDecimal = true)
    (size : ℕ) : spanOf first last size =
      if first.length ≤ maxStrDigits ∧ last.length ≤ maxStrDigits then
        .ok ((asked first last).map (extent size))
      else .error .valueError := by
  have hnil : ([] : List Char).length ≤ maxStrDigits := Nat.zero_le _
  unfold asked
  by_cases hne : first = []
  · subst hne
    rw [if_pos rfl]
    by_cases hne' : last = []
    · subst hne'
      rw [spanOf_empty, if_pos rfl, if_pos ⟨hnil, hnil⟩]
      rfl
    · rw [spanOf_final hlast hne', if_neg hne']
      simp only [hnil, true_and]
      rfl
  · rw [if_neg hne]
    by_cases hne' : last = []
    · subst hne'
      rw [spanOf_onwards hfirst hne, if_pos rfl]
      simp only [hnil, and_true]
      rfl
    · rw [spanOf_between hfirst hne hlast hne', if_neg hne']
      split
      · split <;> rfl
      · rfl

theorem reads_unique {first' last' : List Char}
    (h : Reads header ("bytes=".toList ++ first ++ '-' :: last))
    (hfirst : first.all isDecimal = true) (hlast : last.all isDecimal = true)
    (h' : Reads header ("bytes=".toList ++ first' ++ '-' :: last'))
    (hfirst' : first'.all isDecimal = true) (hlast' : last'.all isDecimal = true) :
    first' = first ∧ last' = last := by
  obtain ⟨text, rfl, hstrip⟩ := h
  obtain ⟨text', htext, hstrip'⟩ := h'
  cases htext
  have hmatch := rangeMatch_eq_some.2 ⟨hstrip, hfirst, hlast⟩
  have hmatch' := rangeMatch_eq_some.2 ⟨hstrip', hfirst', hlast'⟩
  rw [hmatch] at hmatch'
  cases hmatch'
  exact ⟨rfl, rfl⟩

theorem Requests.groups {spec : RangeSpec} (h : Requests header spec) :
    ∃ first last, Reads header ("bytes=".toList ++ first ++ '-' :: last) ∧
      first.all isDecimal = true ∧ last.all isDecimal = true ∧ asked first last = some spec := by
  cases h with
  | @between a b m n h ha hb hle =>
    obtain ⟨hne, hdigits, rfl⟩ := ha
    obtain ⟨hne', hdigits', rfl⟩ := hb
    refine ⟨a, b, h, hdigits, hdigits', ?_⟩
    unfold asked
    rw [if_neg hne, if_neg hne', if_neg (not_lt.2 hle)]
  | @onwards a m h ha =>
    obtain ⟨hne, hdigits, rfl⟩ := ha
    refine ⟨a, [], h, hdigits, rfl, ?_⟩
    unfold asked
    rw [if_neg hne, if_pos rfl]
  | @final b n h hb =>
    obtain ⟨hne, hdigits, rfl⟩ := hb
    refine ⟨[], b, h, rfl, hdigits, ?_⟩
    unfold asked
    rw [if_pos rfl, if_neg hne]

theorem requests_of_asked {spec : RangeSpec}
    (h : Reads header ("bytes=".toList ++ first ++ '-' :: last))
    (hfirst : first.all isDecimal = true) (hlast : last.all isDecimal = true)
    (hasked : asked first last = some spec) : Requests header spec := by
  unfold asked at hasked
  split at hasked
  · rename_i hnil
    subst hnil
    split at hasked
    · cases hasked
    · rename_i hne
      cases hasked
      exact .final h ⟨hne, hlast, rfl⟩
  · rename_i hne
    split at hasked
    · rename_i hnil
      subst hnil
      cases hasked
      exact .onwards h ⟨hne, hfirst, rfl⟩
    · rename_i hne'
      split at hasked
      · cases hasked
      · rename_i hle
        cases hasked
        exact .between h ⟨hne, hfirst, rfl⟩ ⟨hne', hlast, rfl⟩ (not_lt.1 hle)

/-! ## What is served -/

theorem clamped_eq_none {size : ℕ} {spec : RangeSpec} (h : clamped size spec = none) :
    (size : ℤ) ≤ (extent size spec).1 := by
  cases spec with
  | between m n =>
    have hle : ¬ m < size := by simpa [clamped] using h
    change (size : ℤ) ≤ m
    omega
  | onwards m =>
    have hle : ¬ m < size := by simpa [clamped] using h
    change (size : ℤ) ≤ m
    omega
  | final n =>
    have hle : ¬ (0 < n ∧ 0 < size) := by simpa [clamped] using h
    change (size : ℤ) ≤ max 0 ((size : ℤ) - min (n : ℤ) size)
    omega

theorem clamped_eq_some {size start stop : ℕ} {spec : RangeSpec} (hwell : ∀ m n,
    spec = .between m n → m ≤ n) (h : clamped size spec = some (start, stop)) :
    extent size spec = ((start : ℤ), (stop : ℤ)) ∧ start ≤ stop ∧ stop < size := by
  cases spec with
  | between m n =>
    have hle := hwell m n rfl
    dsimp only [clamped] at h
    split at h
    · rename_i hlt
      cases h
      refine ⟨Prod.ext rfl ?_, by omega, by omega⟩
      change min (n : ℤ) ((size : ℤ) - 1) = ((min n (size - 1) : ℕ) : ℤ)
      omega
    · cases h
  | onwards m =>
    dsimp only [clamped] at h
    split at h
    · rename_i hlt
      cases h
      refine ⟨Prod.ext rfl ?_, by omega, by omega⟩
      change (size : ℤ) - 1 = ((size - 1 : ℕ) : ℤ)
      omega
    · cases h
  | final n =>
    dsimp only [clamped] at h
    split at h
    · rename_i hlt
      cases h
      refine ⟨Prod.ext ?_ ?_, by omega, by omega⟩
      · change max 0 ((size : ℤ) - min (n : ℤ) size) = ((size - min n size : ℕ) : ℤ)
        omega
      · change (size : ℤ) - 1 = ((size - 1 : ℕ) : ℤ)
        omega
    · cases h

theorem serves_whole (hparse : parseRange header m.object.length = .ok none)
    (hnone : ∀ spec, ¬ Requests header spec) :
    ∃ r, readMedia m header = .ok r ∧ Served m header r := by
  have hbody : streamed m 0 ((m.object.length : ℤ) - 1) = m.object := by
    rw [streamed_eq]
    exact List.take_of_length_le (by rw [List.length_drop]; omega)
  unfold readMedia
  dsimp only
  rw [m.recorded, hparse]
  refine ⟨_, rfl, .whole hnone rfl hbody ?_⟩
  change _ ∈ commonHeaders ++ [("Content-Length", toString m.object.length)]
  rw [hbody]
  exact List.mem_append_right _ (List.mem_singleton_self _)

theorem serves_range {spec : RangeSpec} (h : Requests header spec)
    (hparse : parseRange header m.object.length = .ok (some (extent m.object.length spec))) :
    ∃ r, readMedia m header = .ok r ∧ Served m header r := by
  have hwell : ∀ m n, spec = .between m n → m ≤ n := by
    rintro m n rfl
    cases h with
    | between _ _ _ hle => exact hle
  cases hclamped : clamped m.object.length spec with
  | none =>
    have hpast := clamped_eq_none hclamped
    unfold readMedia
    dsimp only
    rw [m.recorded, hparse]
    refine ⟨_, if_pos hpast, .unsatisfiable h hclamped rfl rfl⟩
  | some span =>
    obtain ⟨start, stop⟩ := span
    obtain ⟨hextent, hle, hlt⟩ := clamped_eq_some hwell hclamped
    have hinside : ¬ (m.object.length : ℤ) ≤ (start : ℤ) := by omega
    have hbody : streamed m start stop = bytesOf m.object start stop := by
      have hcount : ((stop : ℤ) - start + 1).toNat = stop + 1 - start := by omega
      rw [streamed_eq, hcount]
      rfl
    have hlength : (stop : ℤ) - start + 1 = (bytesOf m.object start stop).length := by
      unfold bytesOf
      rw [List.length_take, List.length_drop]
      omega
    unfold readMedia
    dsimp only
    rw [m.recorded, hparse, hextent]
    refine ⟨_, if_neg hinside, .span h hclamped rfl hle hlt hbody ?_ ?_⟩
    · exact List.mem_append_right _ (List.mem_cons_self ..)
    · change ("Content-Length", toString (streamed m start stop).length) ∈
        commonHeaders ++ [_, ("Content-Length", toString ((stop : ℤ) - start + 1))]
      rw [hbody, hlength]
      exact List.mem_append_right _ (List.mem_cons_of_mem _ (List.mem_singleton_self _))

/-- A number of too many digits is the one thing that goes wrong. -/
theorem served_iff (m : Media) (header : Option String) :
    (∃ r, readMedia m header = .ok r ∧ Served m header r) ↔ ¬ LongNumeral header := by
  constructor
  · rintro ⟨r, hok, -⟩ ⟨first, last, hreads, hfirst, hlast, hlong⟩
    have hnot : ¬ (first.length ≤ maxStrDigits ∧ last.length ≤ maxStrDigits) := by omega
    unfold readMedia at hok
    dsimp only at hok
    rw [parseRange_of_reads hreads hfirst hlast, spanOf_eq hfirst hlast, if_neg hnot] at hok
    cases hok
  · intro hshort
    by_cases hgroups : ∃ first last, first.all isDecimal = true ∧ last.all isDecimal = true ∧
        Reads header ("bytes=".toList ++ first ++ '-' :: last)
    · obtain ⟨first, last, hfirst, hlast, hreads⟩ := hgroups
      have hfits : first.length ≤ maxStrDigits ∧ last.length ≤ maxStrDigits := by
        by_contra hlong
        exact hshort ⟨first, last, hreads, hfirst, hlast, by omega⟩
      have hparse := parseRange_of_reads hreads hfirst hlast m.object.length
      rw [spanOf_eq hfirst hlast, if_pos hfits] at hparse
      cases hasked : asked first last with
      | none =>
        rw [hasked] at hparse
        refine serves_whole hparse (fun spec h => ?_)
        obtain ⟨first', last', hreads', hfirst', hlast', hspec⟩ := h.groups
        obtain ⟨rfl, rfl⟩ := reads_unique hreads hfirst hlast hreads' hfirst' hlast'
        rw [hasked] at hspec
        cases hspec
      | some spec =>
        rw [hasked] at hparse
        exact serves_range (requests_of_asked hreads hfirst hlast hasked) hparse
    · refine serves_whole (parseRange_of_not_reads (fun first last hfirst hlast h => ?_) _)
        (fun spec h => ?_)
      · exact hgroups ⟨first, last, hfirst, hlast, h⟩
      · obtain ⟨first, last, hreads, hfirst, hlast, -⟩ := h.groups
        exact hgroups ⟨first, last, hfirst, hlast, hreads⟩

end

/-! ## A player that asks for too much -/

/-- `bytes=` and one digit more than the interpreter converts. -/
def longHeader : String :=
  .ofList ("bytes=".toList ++ List.replicate (maxStrDigits + 1) '9' ++ ['-'])

def silence : Media where
  object := [0, 0]
  bytes := some 2
  contentType := "audio/mpeg"
  recorded := rfl

theorem longHeader_reads : Reads (some longHeader)
    ("bytes=".toList ++ List.replicate (maxStrDigits + 1) '9' ++ ['-']) := by
  have hspace : ∀ c ∈ "bytes=".toList ++ List.replicate (maxStrDigits + 1) '9' ++ ['-'],
      isSpace c = false := by
    intro c hc
    rw [List.mem_append, List.mem_append] at hc
    obtain (hc | hc) | hc := hc
    · have hall : "bytes=".toList.all (fun c => !isSpace c) = true := rfl
      simpa using List.all_eq_true.1 hall c hc
    · rw [List.eq_of_mem_replicate hc]
      rfl
    · rw [List.mem_singleton.1 hc]
      rfl
  refine ⟨longHeader, rfl, ?_⟩
  unfold strip longHeader
  rw [String.toList_ofList, String.toList_ofList]
  exact stripBy_eq_self hspace

/-- A well-formed request for bytes that do not exist is not answered with a 416. -/
theorem long_header_raises : parseRange (some longHeader) silence.object.length =
      .error .valueError ∧ ¬ ∃ r, readMedia silence (some longHeader) = .ok r := by
  have hdigits : (List.replicate (maxStrDigits + 1) '9').all isDecimal = true := by
    rw [List.all_replicate]
    rfl
  have hlong : ¬ ((List.replicate (maxStrDigits + 1) '9').length ≤ maxStrDigits ∧
      ([] : List Char).length ≤ maxStrDigits) := by
    rw [List.length_replicate]
    exact fun h => absurd h.1 (Nat.not_succ_le_self _)
  have hnone : ([] : List Char).all isDecimal = true := List.all_nil
  have hparse : parseRange (some longHeader) silence.object.length = .error .valueError := by
    rw [parseRange_of_reads longHeader_reads hdigits hnone, spanOf_eq hdigits hnone,
      if_neg hlong]
  refine ⟨hparse, ?_⟩
  rintro ⟨r, hr⟩
  unfold readMedia at hr
  dsimp only at hr
  rw [silence.recorded, hparse] at hr
  cases hr

end IeltsHub.RangeServing
