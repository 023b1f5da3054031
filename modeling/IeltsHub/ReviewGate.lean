import IeltsHub.ContentDrafts
import IeltsHub.ContentFingerprint
import IeltsHub.GuardedRuns
import IeltsHub.PublishGatePasses

set_option autoImplicit false

/-!
# The review gate

`submit_review`, `decide_review` and `publish_version` over one version of a test, with
`app/modules/content/review.py` between them. An edit of anything the version is made of is a new
`Content`. `decisions` is not a column: it is what has been decided, over which content, in order.
-/
namespace IeltsHub.ReviewGate
open PyValue PyDict PyTime RowTable ContentModels ContentDrafts ContentFingerprint
  ContentPublishGate QtypesRegistry PlatformFindings

inductive Outcome where
  | approved | changesRequested
  deriving DecidableEq, Repr

inductive ReviewState where
  | requested
  | decided (outcome : Outcome)
  deriving DecidableEq, Repr

structure Review where
  id : ℕ
  requestedBy : ℕ
  createdAt : Time
  state : ReviewState := .requested
  notes : Option String := none
  reviewerId : Option ℕ := none
  decidedAt : Option Time := none
  contentChecksum : Option String := none
  deriving DecidableEq

structure Content where
  composition : Composition
  config : Obj := Dict.empty

structure Decision where
  review : ℕ
  outcome : Outcome
  requestedBy : ℕ
  reviewer : ℕ
  moment : Time
  content : Content

/-- What `publish` writes beside the status. -/
structure Published where
  snapshot : Json
  totalQuestions : ℕ
  maxRaw : ℕ
  publishedBy : ℕ
  publishedAt : Time

structure Version where
  createdBy : ℕ
  content : Content
  status : VersionStatus := .draft
  published : Option Published := none
  reviews : Table Review ℕ Review.id := .empty
  decisions : List Decision := []

/-- The registry and the validator the gate runs with, and the settings of the centre. -/
structure Centre where
  validator : Validator
  registry : Registry
  settings : Obj := Dict.empty

/-- `required_by`. -/
def requiredBy (settings : Obj) : Bool := truthy (getD settings "require_review" .null)

def gateReport (centre : Centre) (c : Composition) : Except Raised Report :=
  match ContentPublishGate.run centre.validator c.core centre.registry with
  | .ok report => .ok report
  | .error _ => .error (.domain .integrity)

def passGate (centre : Centre) (c : Composition) (refusal : String) : Except Raised Unit := do
  let report ← gateReport centre c
  if report.passed then return () else .error (.domain (.validationFailed refusal report.errors))

/-! ## The three handlers -/

structure Request where
  actor : ℕ
  access : Except Denied Unit := .ok ()
  notes : Option String := none
  now : Time

def submitReview (centre : Centre) (v : Version) (r : Request) : Except Raised Version := do
  required "Test version not found." r.access
  mutable v.status
  passGate centre v.content.composition "This test has errors that must be fixed before review."
  return { v with
    status := .inReview
    reviews := v.reviews.put
      { id := v.reviews.nextId, requestedBy := r.actor, createdAt := r.now, notes := r.notes } }

/-- `ORDER BY created_at DESC`. -/
def Review.newer (a b : Review) : Prop := b.createdAt ≤ a.createdAt

instance (a b : Review) : Decidable (a.newer b) := inferInstanceAs (Decidable (_ ≤ _))

def openRequest (v : Version) : Option Review :=
  ((v.reviews.select (fun r => r.state = .requested)).insertionSort Review.newer).head?

/-- `_refuse_self_approval`. -/
def refuseSelfApproval (actor requestedBy createdBy : ℕ) : Except Raised Unit :=
  if actor = requestedBy ∨ actor = createdBy then .error (.domain (.forbidden "self_approval"))
  else .ok ()

def decisionChecksum (v : Version) (r : Request) (open_ : Review) :
    Outcome → Except Raised (Option String)
  | .changesRequested => .ok none
  | .approved => do
    refuseSelfApproval r.actor open_.requestedBy v.createdBy
    return some (fingerprint v.content.composition)

def decideReview (v : Version) (r : Request) (outcome : Outcome) : Except Raised Version := do
  required "Test version not found." r.access
  if v.status ≠ .inReview then
    .error (.domain (.conflict ("This version is '" ++ statusText v.status ++ "', not in review.")
      "not_in_review"))
  else match openRequest v with
    | none => .error (.domain (.notFound "No open review request for this version."))
    | some row => do
      let checksum ← decisionChecksum v r row outcome
      return { v with
        status := if outcome = .changesRequested then .draft else .inReview
        reviews := v.reviews.put { row with
          state := .decided outcome
          notes := r.notes.or row.notes
          reviewerId := some r.actor
          decidedAt := some r.now
          contentChecksum := checksum }
        decisions := v.decisions ++
          [⟨row.id, outcome, row.requestedBy, r.actor, r.now, v.content⟩] }

/-- Under `ORDER BY decided_at DESC NULLS LAST, id DESC` the highest comes first. -/
def Review.rank (a : Review) : Lex (WithBot Time × ℕ) := toLex (a.decidedAt, a.id)

def Review.later (a b : Review) : Prop := b.rank ≤ a.rank

instance (a b : Review) : Decidable (a.later b) := inferInstanceAs (Decidable (_ ≤ _))

def latestApproval (v : Version) : Option Review :=
  ((v.reviews.select (fun r => r.state = .decided .approved)).insertionSort Review.later).head?

def requireApproval (v : Version) (settings : Obj) : Except Raised (Option Review) :=
  if !requiredBy settings then .ok none
  else match latestApproval v with
    | none => .error (.domain (.conflict
        "This centre requires a content review before publishing, and this version has not been approved."
        "review_required"))
    | some approval =>
      if approval.contentChecksum ≠ some (fingerprint v.content.composition) then
        .error (.domain (.conflict
          "This version has changed since it was approved. Submit it for review again."
          "review_stale"))
      else .ok (some approval)

/-- `repo.publish`. -/
def publish (v : Version) (publishedBy : ℕ) (now : Time) : Version :=
  let c := v.content.composition
  { v with
    status := .published
    published := some ⟨buildSnapshot c, c.totalSlots, c.totalSlots, publishedBy, now⟩ }

def publishVersion (centre : Centre) (v : Version) (r : Request) : Except Raised Version := do
  required "Test version not found." r.access
  if v.status = .published then
    .error (.domain (.conflict "This version is already published." "already_published"))
  else do
    passGate centre v.content.composition "This test is not ready to publish."
    let _ ← requireApproval v centre.settings
    return publish v r.actor r.now

/-! ## Histories -/

inductive Act where
  | edit (content : Content)
  | submit (r : Request)
  | decide (r : Request) (outcome : Outcome)
  | publish (r : Request)

def settled (v : Version) : Except Raised Version → Version
  | .ok v' => v'
  | .error _ => v

def act (centre : Centre) (v : Version) : Act → Version
  | .edit content => { v with content }
  | .submit r => settled v (submitReview centre v r)
  | .decide r outcome => settled v (decideReview v r outcome)
  | .publish r => settled v (publishVersion centre v r)

def runAll (centre : Centre) (v : Version) (acts : List Act) : Version :=
  acts.foldl (act centre) v

def fresh (createdBy : ℕ) (content : Content) : Version := { createdBy, content }

end IeltsHub.ReviewGate
