import IeltsHub.PyText
import IeltsHub.PyDict

set_option autoImplicit false

/-!
# JSON values as Python objects

What `json.loads` returns, with the operations a program applies without looking at the class
first: truth, `.get`, subscripts, iteration, `str`, `int`, `Decimal`. Each raises where Python
does. A number with a fraction is held by the value its text denotes; a `Decimal` is an exact
rational, without the special values.
-/
namespace IeltsHub.PyValue
open PyExc PyText PyDict

inductive Json where
  | null
  | bool (b : Bool)
  | int (n : ℤ)
  | real (q : ℚ)
  | str (s : String)
  | arr (elements : List Json)
  | obj (members : List (String × Json))

abbrev Obj := Dict String Json

mutual
def Json.decEq : (a b : Json) → Decidable (a = b)
  | .null, .null => .isTrue rfl
  | .bool a, .bool b => decidable_of_iff (a = b) (by simp)
  | .int a, .int b => decidable_of_iff (a = b) (by simp)
  | .real a, .real b => decidable_of_iff (a = b) (by simp)
  | .str a, .str b => decidable_of_iff (a = b) (by simp)
  | .arr a, .arr b =>
    match Json.decEqList a b with
    | .isTrue h => .isTrue (by rw [h])
    | .isFalse h => .isFalse (by intro q; exact h (by simpa using q))
  | .obj a, .obj b =>
    match Json.decEqMembers a b with
    | .isTrue h => .isTrue (by rw [h])
    | .isFalse h => .isFalse (by intro q; exact h (by simpa using q))
  | .null, .bool _ | .null, .int _ | .null, .real _ | .null, .str _ | .null, .arr _
  | .null, .obj _ | .bool _, .null | .bool _, .int _ | .bool _, .real _ | .bool _, .str _
  | .bool _, .arr _ | .bool _, .obj _ | .int _, .null | .int _, .bool _ | .int _, .real _
  | .int _, .str _ | .int _, .arr _ | .int _, .obj _ | .real _, .null | .real _, .bool _
  | .real _, .int _ | .real _, .str _ | .real _, .arr _ | .real _, .obj _ | .str _, .null
  | .str _, .bool _ | .str _, .int _ | .str _, .real _ | .str _, .arr _ | .str _, .obj _
  | .arr _, .null | .arr _, .bool _ | .arr _, .int _ | .arr _, .real _ | .arr _, .str _
  | .arr _, .obj _ | .obj _, .null | .obj _, .bool _ | .obj _, .int _ | .obj _, .real _
  | .obj _, .str _ | .obj _, .arr _ => .isFalse (by simp)

def Json.decEqList : (a b : List Json) → Decidable (a = b)
  | [], [] => .isTrue rfl
  | [], _ :: _ | _ :: _, [] => .isFalse (by simp)
  | a :: as, b :: bs =>
    match Json.decEq a b, Json.decEqList as bs with
    | .isTrue h, .isTrue h' => .isTrue (by rw [h, h'])
    | .isFalse h, _ => .isFalse (by intro q; exact h (List.cons.inj q).1)
    | _, .isFalse h => .isFalse (by intro q; exact h (List.cons.inj q).2)

def Json.decEqMembers : (a b : List (String × Json)) → Decidable (a = b)
  | [], [] => .isTrue rfl
  | [], _ :: _ | _ :: _, [] => .isFalse (by simp)
  | (k, a) :: as, (l, b) :: bs =>
    match (inferInstance : Decidable (k = l)), Json.decEq a b, Json.decEqMembers as bs with
    | .isTrue h, .isTrue h', .isTrue h'' => .isTrue (by rw [h, h', h''])
    | .isFalse h, _, _ => .isFalse (by intro q; exact h (Prod.mk.inj (List.cons.inj q).1).1)
    | _, .isFalse h, _ => .isFalse (by intro q; exact h (Prod.mk.inj (List.cons.inj q).1).2)
    | _, _, .isFalse h => .isFalse (by intro q; exact h (List.cons.inj q).2)
end

instance : DecidableEq Json := Json.decEq

instance : Inhabited Json := ⟨.null⟩

/-! ## Text of a value -/

def fractionDigits : ℕ → ℕ → ℕ → List Char
  | 0, _, _ => []
  | fuel + 1, num, den =>
    if num = 0 then []
    else Nat.digitChar (10 * num / den) :: fractionDigits fuel (10 * num % den) den

/-- `repr` of a float, in positional notation. -/
def textOfReal (q : ℚ) : String :=
  let n := q.num.natAbs
  let digits := fractionDigits 400 (n % q.den) q.den
  .ofList ((if q < 0 then ['-'] else []) ++ Nat.toDigits 10 (n / q.den) ++ ['.'] ++
    (if digits.isEmpty then ['0'] else digits))

def escapeChar (quote c : Char) : List Char :=
  if c = quote ∨ c = '\\' then ['\\', c]
  else if c = '\n' then ['\\', 'n']
  else if c = '\r' then ['\\', 'r']
  else if c = '\t' then ['\\', 't']
  else if c.toNat < 0x20 ∨ c.toNat = 0x7f then
    ['\\', 'x', Nat.digitChar (c.toNat / 16), Nat.digitChar (c.toNat % 16)]
  else [c]

def reprText (s : String) : List Char :=
  let quote := if s.toList.contains '\'' && !s.toList.contains '"' then '"' else '\''
  quote :: s.toList.flatMap (escapeChar quote) ++ [quote]

mutual
def reprValue : Json → List Char
  | .null => "None".toList
  | .bool b => (if b then "True" else "False").toList
  | .int n => (toString n).toList
  | .real q => (textOfReal q).toList
  | .str s => reprText s
  | .arr es => '[' :: List.intercalate ", ".toList (reprList es) ++ [']']
  | .obj ms => '\x7b' :: List.intercalate ", ".toList (reprMembers ms) ++ ['\x7d']

def reprList : List Json → List (List Char)
  | [] => []
  | e :: es => reprValue e :: reprList es

def reprMembers : List (String × Json) → List (List Char)
  | [] => []
  | (k, v) :: ms => (reprText k ++ ": ".toList ++ reprValue v) :: reprMembers ms
end

/-- `str(value)`. -/
def pyStr : Json → String
  | .str s => s
  | v => .ofList (reprValue v)

@[simp] theorem pyStr_str (s : String) : pyStr (.str s) = s := rfl

/-! ## Reading a value -/

variable {δ : Type}

/-- `bool(value)`. -/
def truthy : Json → Bool
  | .null => false
  | .bool b => b
  | .int n => n ≠ 0
  | .real q => q ≠ 0
  | .str s => !s.isEmpty
  | .arr es => !es.isEmpty
  | .obj ms => !ms.isEmpty

/-- The dictionary an object denotes: of a repeated key the last value stands. -/
def dictOf (members : List (String × Json)) : Obj := Dict.ofList members

def asDict : Json → Option Obj
  | .obj ms => some (dictOf ms)
  | _ => none

/-- A method of `dict` called on the value. -/
def dictMethod (v : Json) : Except (Exc δ) Obj :=
  match asDict v with
  | some d => .ok d
  | none => .error .attributeError

/-- `value.get(key, default)`. -/
def getD (d : Obj) (key : String) (default : Json) : Json := (d.get? key).getD default

/-- `value.get(key) or default`. -/
def getOr (d : Obj) (key : String) (default : Json) : Json :=
  let v := getD d key .null
  if truthy v then v else default

/-- `value[key]` for a text key. -/
def subscript (v : Json) (key : String) : Except (Exc δ) Json :=
  match v with
  | .obj ms =>
    match (dictOf ms).get? key with
    | some w => .ok w
    | none => .error (.keyError key)
  | _ => .error .typeError

def elements? : Json → Option (List Json)
  | .arr es => some es
  | .str s => some (s.toList.map (fun c => .str (.singleton c)))
  | .obj ms => some ((dictOf ms).keys.map .str)
  | _ => none

def iter (v : Json) : Except (Exc δ) (List Json) :=
  match elements? v with
  | some es => .ok es
  | none => .error .typeError

def hashable : Json → Bool
  | .arr _ | .obj _ => false
  | _ => true

/-- `int(value)`: a number loses its fraction towards zero. -/
def pyInt : Json → Except (Exc δ) ℤ
  | .bool b => .ok (if b then 1 else 0)
  | .int n => .ok n
  | .real q => .ok (q.num.tdiv q.den)
  | .str s => intOfText s
  | _ => .error .typeError

def takeDigits : List Char → List ℕ × List Char
  | [] => ([], [])
  | c :: cs =>
    match decimal? c with
    | some d => let r := takeDigits cs; (d :: r.1, r.2)
    | none => ([], c :: cs)

def scale10 (m : ℚ) (e : ℤ) : ℚ := if 0 ≤ e then m * 10 ^ e.toNat else m / 10 ^ (-e).toNat

def exponentOf : List Char → Option ℤ
  | [] => some 0
  | c :: cs =>
    if c = 'e' ∨ c = 'E' then
      let body := signOf cs
      match takeDigits body.2 with
      | ([], _) => none
      | (ds, []) => some (if body.1 then -(ofDigits ds : ℤ) else (ofDigits ds : ℤ))
      | _ => none
    else none

def decimalLiteral (s : String) : Option ℚ :=
  let body := signOf ((stripBy isSpace s.toList).filter (fun c => c ≠ '_'))
  let whole := takeDigits body.2
  let fraction := match whole.2 with
    | '.' :: cs => takeDigits cs
    | cs => ([], cs)
  if whole.1.isEmpty && fraction.1.isEmpty then none
  else
    match exponentOf fraction.2 with
    | none => none
    | some e =>
      let m := scale10 (ofDigits (whole.1 ++ fraction.1)) (e - fraction.1.length)
      some (if body.1 then -m else m)

/-- `Decimal(str(value))`. -/
def decimal : Json → Except (Exc δ) ℚ
  | .int n => .ok n
  | .real q => .ok q
  | .str s =>
    match decimalLiteral s with
    | some q => .ok q
    | none => .error .invalidOperation
  | _ => .error .invalidOperation

theorem returns_dictMethod (v : Json) :
    Returns (dictMethod v : Except (Exc δ) Obj) ↔ ∃ d, asDict v = some d := by
  unfold dictMethod
  cases asDict v <;> simp

theorem dictMethod_eq_ok {v : Json} {d : Obj} :
    (dictMethod v : Except (Exc δ) Obj) = .ok d ↔ asDict v = some d := by
  unfold dictMethod
  cases asDict v <;> simp

theorem iter_eq_ok {v : Json} {es : List Json} :
    (iter v : Except (Exc δ) (List Json)) = .ok es ↔ elements? v = some es := by
  unfold iter
  cases elements? v <;> simp

theorem returns_iter (v : Json) :
    Returns (iter v : Except (Exc δ) (List Json)) ↔ ∃ es, elements? v = some es := by
  unfold Returns
  simp only [iter_eq_ok]

theorem elements?_of_not_truthy {v : Json} {es : List Json} (ht : truthy v = false)
    (h : elements? v = some es) : es = [] := by
  cases v with
  | arr l =>
    cases h
    simpa [truthy] using ht
  | str s =>
    cases h
    have hs : s = "" := by simpa [truthy] using ht
    subst hs
    rfl
  | obj ms =>
    cases h
    have hm : ms = [] := by simpa [truthy] using ht
    subst hm
    rfl
  | _ => cases h

theorem elements?_getOr {d : Obj} {key : String} {es : List Json}
    (h : elements? (getD d key (.arr [])) = some es) :
    elements? (getOr d key (.arr [])) = some es := by
  unfold getOr
  unfold getD at h ⊢
  cases hk : d.get? key with
  | none =>
    rw [hk] at h
    exact h
  | some v =>
    rw [hk] at h
    change elements? v = some es at h
    change elements? (if truthy v = true then v else .arr []) = some es
    cases ht : truthy v with
    | true => exact h
    | false =>
      rw [elements?_of_not_truthy ht h]
      rfl

end IeltsHub.PyValue
