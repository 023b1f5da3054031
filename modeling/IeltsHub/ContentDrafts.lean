import IeltsHub.ContentModels
import IeltsHub.ContentPublishGate
import IeltsHub.PyJson
import IeltsHub.Sha256

set_option autoImplicit false

/-!
# Editing a draft

The five handlers that edit a draft, `PATCH` of a test and of the versions of a test, a passage, a
question and a question group, with the tags that guard them. `Context` is what a request finds
outside the draft: whether its sender may edit and share, and what the xids it names refer to.
-/
namespace IeltsHub.ContentDrafts
open PyExc PyText PyValue PyDict PyJson ContentModels ContentPublishGate

inductive Refusal where
  | notFound (message : String)
  | forbidden (code : String)
  | conflict (message code : String)
  | preconditionFailed (message code : String)
  | validationFailed (message : String) (errors : List PlatformFindings.Finding)
  | integrity
  deriving DecidableEq, Repr

abbrev Raised := Exc Refusal

/-- How a lookup under the policy ends when it does not end well. -/
inductive Denied where
  | notFound
  | forbidden (code : String)
  deriving DecidableEq, Repr

structure Context where
  access : Except Denied Unit := .ok ()
  share : Except Denied Unit := .ok ()
  bandMaps : String → Option ℕ := fun _ => none
  media : String → Option ℕ := fun _ => none

def required (missing : String) : Except Denied Unit → Except Raised Unit
  | .ok () => .ok ()
  | .error .notFound => .error (.domain (.notFound missing))
  | .error (.forbidden code) => .error (.domain (.forbidden code))

def resolved (missing : String) (lookup : String → Option ℕ) (current : Option ℕ) :
    Option String → Except Raised (Option ℕ)
  | none => .ok current
  | some xid =>
    match lookup xid with
    | some id => .ok (some id)
    | none => .error (.domain (.notFound missing))

/-! ## Tags -/

/-- A column that holds nothing or a hexadecimal digest. -/
structure Checksum where
  text : String
  hex : ∀ c ∈ text.toList, Sha256.hexChar c = true
  deriving DecidableEq

def Checksum.none : Checksum := ⟨"", by simp⟩

def quoted (inner : String) : String := .ofList ('"' :: inner.toList ++ ['"'])

/-- The tag of any versioned draft; `f"{None}"` is `None`. -/
def versionEtag (versionNo : ℕ) (checksum : Option Checksum) : String :=
  quoted (toString versionNo ++ "-" ++ (checksum.elim "None" Checksum.text))

def removeWeak : List Char → List Char
  | 'W' :: '/' :: cs => cs
  | cs => cs

def ifMatchTokens (ifMatch : String) : List String :=
  (splitOn ',' ifMatch).map (fun token =>
    stripChars "\"" (.ofList (removeWeak (strip token).toList)))

def stale : Raised := .domain (.preconditionFailed
  "This changed since you loaded it. Reload before saving, or your edit would overwrite someone else's."
  "stale_version")

def checkIfMatch (current : String) : Option String → Except Raised Unit
  | none => .ok ()
  | some ifMatch =>
    let seen := ifMatchTokens ifMatch
    if seen.contains "*" || seen.contains (stripChars "\"" current) then .ok () else .error stale

/-! ## A test -/

inductive Visibility where
  | authorPrivate | orgPrivate | platformGlobal
  deriving DecidableEq, Repr

def Visibility.text : Visibility → String
  | .authorPrivate => "author_private"
  | .orgPrivate => "org_private"
  | .platformGlobal => "platform_global"

structure Test where
  title : String
  description : Option String := none
  tags : List String := []
  visibility : Visibility := .orgPrivate
  deriving DecidableEq

def Test.material (t : Test) : String :=
  dumps {} (.arr [.str t.title, t.description.elim .null .str,
    .arr ((sorted t.tags).map .str), .str t.visibility.text])

def testEtag (t : Test) : String :=
  quoted (.ofList ((Sha256.ofText t.material).toList.take 16))

structure TestUpdate where
  title : Option String := none
  description : Option String := none
  tags : Option (List String) := none
  visibility : Option Visibility := none

def sharedAs (test : Test) (share : Except Denied Unit) :
    Option Visibility → Except Raised Visibility
  | none => .ok test.visibility
  | some v => if v = test.visibility then .ok v
    else (fun _ => v) <$> required "Test not found." share

def updateTest (test : Test) (ifMatch : Option String) (request : Context × TestUpdate) :
    Except Raised Test := do
  let (context, body) := request
  required "Test not found." context.access
  checkIfMatch (testEtag test) ifMatch
  let visibility ← sharedAs test context.share body.visibility
  return { test with
    visibility
    title := body.title.getD test.title
    description := body.description.or test.description
    tags := body.tags.getD test.tags }

/-! ## A version of a test -/

structure TestVersionDraft where
  versionNo : ℕ := 1
  checksum : Option Checksum := none
  status : VersionStatus := .draft
  title : String := ""
  config : Obj := Dict.empty
  bandMapVersionId : Option ℕ := none
  deriving DecidableEq

structure TestVersionUpdate where
  title : Option String := none
  config : Option Obj := none
  bandMapVersionXid : Option String := none

def statusText : VersionStatus → String
  | .draft => "draft"
  | .inReview => "in_review"
  | .published => "published"
  | .archived => "archived"

/-- `_mutable`. -/
def mutable (status : VersionStatus) : Except Raised Unit :=
  if status = .published ∨ status = .archived then
    .error (.domain (.conflict
      ("This version is " ++ statusText status ++ " and cannot be edited. Start a new version.")
      "version_immutable"))
  else .ok ()

def updateVersion (tv : TestVersionDraft) (ifMatch : Option String)
    (request : Context × TestVersionUpdate) : Except Raised TestVersionDraft := do
  let (context, body) := request
  required "Test version not found." context.access
  mutable tv.status
  checkIfMatch (versionEtag tv.versionNo tv.checksum) ifMatch
  let bandMapVersionId ← resolved "Band map version not found." context.bandMaps
    tv.bandMapVersionId body.bandMapVersionXid
  return { tv with
    title := body.title.getD tv.title
    config := body.config.getD tv.config
    bandMapVersionId }

/-! ## A version of a passage, a question or a group -/

def unpublished (what : String) (status : VersionStatus) : Except Raised Unit :=
  if status = .published then
    .error (.domain (.conflict ("A published " ++ what ++ " version is immutable; create a new one.")
      "version_immutable"))
  else .ok ()

structure PassageVersionDraft where
  versionNo : ℕ := 1
  checksum : Checksum := .none
  status : VersionStatus := .draft
  title : String := ""
  blocks : List Obj := []
  paragraphLabels : List String := []
  wordCount : ℕ := 0
  deriving DecidableEq

structure PassageVersionUpdate where
  title : Option String := none
  blocks : Option (List Obj) := none

/-- `_letters`. -/
def letters (n : ℕ) : List String :=
  (List.range n).map (fun i => String.singleton (Char.ofNat ('A'.toNat + i)))

/-- `_count_words`. -/
def countWords (blocks : List Obj) : Except Raised ℕ := do
  let counts ← blocks.mapM (fun block => do
    let runs ← iter (getD block "runs" (.arr []))
    let words ← runs.mapM (fun run => do
      let d ← dictMethod run
      return (split (pyStr (getD d "v" (.str "")))).length)
    return words.sum)
  return counts.sum

def paragraphs (blocks : List Obj) : ℕ :=
  let n := blocks.countP (fun b => b.get? "type" = some (.str "paragraph"))
  if n = 0 then blocks.length else n

def withBlocks (pv : PassageVersionDraft) : Option (List Obj) → Except Raised PassageVersionDraft
  | none => .ok pv
  | some blocks => do
    let wordCount ← countWords blocks
    return { pv with blocks, paragraphLabels := letters (paragraphs blocks), wordCount }

def updatePassageVersion (pv : PassageVersionDraft) (ifMatch : Option String)
    (request : Context × PassageVersionUpdate) : Except Raised PassageVersionDraft := do
  let (context, body) := request
  required "Passage version not found." context.access
  unpublished "passage" pv.status
  checkIfMatch (versionEtag pv.versionNo (some pv.checksum)) ifMatch
  withBlocks { pv with title := body.title.getD pv.title } body.blocks

structure QuestionVersionDraft where
  versionNo : ℕ := 1
  checksum : Checksum := .none
  status : VersionStatus := .draft
  payload : Obj := Dict.empty
  slotKeys : List String := []
  points : ℚ := 1
  deriving DecidableEq

structure QuestionVersionUpdate where
  payload : Option Obj := none
  points : Option ℚ := none

def slotsOfEntry : Json → List String
  | .obj ms =>
    match (dictOf ms).get? "key" with
    | some key => [pyStr key]
    | none => []
  | .str s => markers s.toList
  | _ => []

def slotsOfValue : Json → List String
  | .str s => markers s.toList
  | .arr entries => entries.flatMap slotsOfEntry
  | _ => []

/-- `slots_from`. The column takes text only. -/
def slotsFrom (payload : Obj) : Except Raised (List String) :=
  let found := payload.values.flatMap slotsOfValue
  if found.isEmpty then do
    let listed ← iter (getOr payload "slots" (.arr [.str "s1"]))
    listed.mapM (fun entry => match entry with
      | .str s => .ok s
      | _ => .error (.domain .integrity))
  else .ok (sorted found.dedup)

def withPayload (qv : QuestionVersionDraft) : Option Obj → Except Raised QuestionVersionDraft
  | none => .ok qv
  | some payload => do
    let slotKeys ← slotsFrom payload
    return { qv with payload, slotKeys }

def updateQuestionVersion (qv : QuestionVersionDraft) (ifMatch : Option String)
    (request : Context × QuestionVersionUpdate) : Except Raised QuestionVersionDraft := do
  let (context, body) := request
  required "Question version not found." context.access
  unpublished "question" qv.status
  checkIfMatch (versionEtag qv.versionNo (some qv.checksum)) ifMatch
  withPayload { qv with points := body.points.getD qv.points } body.payload

structure GroupVersionDraft where
  versionNo : ℕ := 1
  checksum : Checksum := .none
  status : VersionStatus := .draft
  instructions : Obj := Dict.empty
  wordLimit : Option Obj := none
  optionBank : Option (List Obj) := none
  diagramMediaId : Option ℕ := none
  hotspots : Option (List Obj) := none
  deriving DecidableEq

structure GroupVersionUpdate where
  instructions : Option Obj := none
  wordLimit : Option Obj := none
  optionBank : Option (List Obj) := none
  diagramMediaXid : Option String := none
  hotspots : Option (List Obj) := none

def updateGroupVersion (gv : GroupVersionDraft) (ifMatch : Option String)
    (request : Context × GroupVersionUpdate) : Except Raised GroupVersionDraft := do
  let (context, body) := request
  required "Question group version not found." context.access
  unpublished "group" gv.status
  checkIfMatch (versionEtag gv.versionNo (some gv.checksum)) ifMatch
  let diagramMediaId ← resolved "Media asset not found." context.media gv.diagramMediaId
    body.diagramMediaXid
  return { gv with
    instructions := body.instructions.getD gv.instructions
    wordLimit := body.wordLimit.or gv.wordLimit
    optionBank := body.optionBank.or gv.optionBank
    diagramMediaId
    hotspots := body.hotspots.or gv.hotspots }

/-! ## What a tag lets through -/

def tagChar (c : Char) : Bool := c.isDigit || "abcdef-None".toList.contains c

theorem tagChar_plain {c : Char} (h : tagChar c = true) : c ≠ ',' ∧ c ≠ '"' ∧ c ≠ '*' := by
  refine ⟨?_, ?_, ?_⟩
  all_goals
    rintro rfl
    revert h
    decide +kernel

theorem splitOnChar_of_not_mem {sep : Char} {word cs : List Char} (h : sep ∉ cs) :
    splitOnChar sep word cs = [word.reverse ++ cs] := by
  induction cs generalizing word with
  | nil => simp [splitOnChar]
  | cons c cs ih =>
    rw [List.mem_cons, not_or] at h
    rw [splitOnChar, if_neg (fun q => h.1 q.symm), ih h.2]
    simp

theorem stripBy_of_ends {p : Char → Bool} {q : Char} {cs : List Char} (hq : p q = false) :
    stripBy p (q :: cs ++ [q]) = q :: cs ++ [q] := by
  simp [stripBy, hq]

theorem stripBy_wrapped {p : Char → Bool} {q : Char} {cs : List Char} (hq : p q = true)
    (hcs : ∀ c ∈ cs, p c = false) : stripBy p (q :: cs ++ [q]) = cs := by
  have hdrop : ∀ {l : List Char}, (∀ c ∈ l, p c = false) → l.dropWhile p = l := by
    intro l hl
    cases l with
    | nil => rfl
    | cons c l => simp [hl c List.mem_cons_self]
  cases cs with
  | nil => simp [stripBy, hq]
  | cons c cs =>
    have hc : p c = false := hcs c List.mem_cons_self
    have hback : (c :: cs).reverse.dropWhile p = (c :: cs).reverse :=
      hdrop (fun x hx => hcs x (List.mem_reverse.1 hx))
    have hfront : (q :: c :: cs ++ [q]).dropWhile p = c :: cs ++ [q] := by simp [hq, hc]
    unfold stripBy
    rw [hfront, List.reverse_append]
    change ((q :: (c :: cs).reverse).dropWhile p).reverse = _
    rw [List.dropWhile_cons_of_pos hq, hback, List.reverse_reverse]

section
variable {inner inner' : String}

theorem stripChars_quoted (h : ∀ c ∈ inner.toList, tagChar c = true) :
    stripChars "\"" (quoted inner) = inner := by
  unfold stripChars quoted
  simp only [String.toList_ofList]
  have hplain : ∀ c ∈ inner.toList, "\"".toList.contains c = false := by
    intro c hc
    simpa using (tagChar_plain (h c hc)).2.1
  have hquote : "\"".toList.contains '"' = true := by decide
  rw [stripBy_wrapped hquote hplain, String.ofList_toList]

theorem ifMatchTokens_quoted (h : ∀ c ∈ inner.toList, tagChar c = true) :
    ifMatchTokens (quoted inner) = [inner] := by
  have hcomma : ',' ∉ (quoted inner).toList := by
    simp only [quoted, String.toList_ofList, List.cons_append, List.mem_cons, List.mem_append,
      List.not_mem_nil, or_false, not_or]
    exact ⟨by decide, fun hm => (tagChar_plain (h _ hm)).1 rfl, by decide⟩
  have hstrip : strip (quoted inner) = quoted inner := by
    unfold strip quoted
    rw [String.toList_ofList, stripBy_of_ends (by decide)]
  have hweak : removeWeak (quoted inner).toList = (quoted inner).toList := by
    unfold quoted
    rw [String.toList_ofList]
    rfl
  unfold ifMatchTokens splitOn
  rw [splitOnChar_of_not_mem hcomma]
  simp only [List.reverse_nil, List.nil_append, List.map_cons, List.map_nil, String.ofList_toList]
  rw [hstrip, hweak, String.ofList_toList, stripChars_quoted h]

theorem checkIfMatch_quoted (h : ∀ c ∈ inner.toList, tagChar c = true)
    (h' : ∀ c ∈ inner'.toList, tagChar c = true) :
    checkIfMatch (quoted inner) (some (quoted inner')) =
      if quoted inner' = quoted inner then .ok () else .error stale := by
  have hstar : inner' ≠ "*" := by
    rintro rfl
    exact (tagChar_plain ( h' '*' (by decide))).2.2 rfl
  have hquoted : quoted inner' = quoted inner ↔ inner = inner' := by
    constructor
    · intro heq
      rw [← stripChars_quoted h, ← heq, stripChars_quoted h']
    · intro heq
      rw [heq]
  simp only [checkIfMatch, ifMatchTokens_quoted h', stripChars_quoted h, List.contains_cons,
    List.contains_nil, Bool.or_false]
  by_cases heq : inner = inner'
  · simp [heq]
  · have hne : ¬ quoted inner' = quoted inner := fun q => heq (hquoted.1 q)
    have hstar' : ("*" == inner') = false := by simpa using fun q : "*" = inner' => hstar q.symm
    simp [heq, hne, hstar']

theorem tagChar_of_hexChar {c : Char} (h : Sha256.hexChar c = true) : tagChar c = true := by
  have hmem : c ∈ ['0', '1', '2', '3', '4', '5', '6', '7', '8', '9', 'a', 'b', 'c', 'd', 'e', 'f'] :=
    List.contains_iff_mem.1 h
  simp only [List.mem_cons, List.not_mem_nil, or_false] at hmem
  rcases hmem with rfl | rfl | rfl | rfl | rfl | rfl | rfl | rfl | rfl | rfl | rfl | rfl | rfl |
    rfl | rfl | rfl
  all_goals decide

theorem tagChar_versionEtag {n : ℕ} {checksum : Option Checksum} :
    ∀ c ∈ (toString n ++ "-" ++ (checksum.elim "None" Checksum.text)).toList,
      tagChar c = true := by
  intro c hc
  rw [String.toList_append, String.toList_append, List.mem_append, List.mem_append] at hc
  rcases hc with (hc | hc) | hc
  · rw [Nat.toString_eq_ofList_toDigits, String.toList_ofList] at hc
    have hdigit : c.isDigit = true := Nat.isDigit_of_mem_toDigits (by decide) (by decide) hc
    simp [tagChar, hdigit]
  · have hdash : c = '-' := by simpa using hc
    subst hdash
    decide
  · cases checksum with
    | none =>
      change c ∈ ['N', 'o', 'n', 'e'] at hc
      simp only [List.mem_cons, List.not_mem_nil, or_false] at hc
      rcases hc with rfl | rfl | rfl | rfl
      all_goals decide
    | some sum => exact tagChar_of_hexChar (sum.hex c hc)

theorem tagChar_testEtag (t : Test) :
    ∀ c ∈ (String.ofList ((Sha256.ofText t.material).toList.take 16)).toList,
      tagChar c = true := by
  intro c hc
  rw [String.toList_ofList] at hc
  exact tagChar_of_hexChar (Sha256.hexChar_of_mem (List.mem_of_mem_take hc))

end

end IeltsHub.ContentDrafts
