import IeltsHub.AuthzPolicy
import IeltsHub.PagingWalk
import IeltsHub.ResumedReading

set_option autoImplicit false

/-!
# The sharing list

`list_grants` of `app/api/routers/platform_ops.py`. The policy filter runs over batches of two
hundred rows, and a page stops at the row that fills it. Both resume strictly below a `granted_at`,
so grants of one moment are lost where a batch or a page ends between them.
-/
namespace IeltsHub.SharingList
open PyExc PyDict PyText PyTime PlatformErrors AuthzPolicy PagingCursor PagingWalk ResumedReading

/-! ## Grants and their subjects -/

structure GrantRow where
  id : ℕ
  xid : String
  subjectType : String
  subjectId : ℤ
  granteeKind : String
  granteeId : Option ℤ
  permission : String
  grantedAt : Time
  expiresAt : Option Time := none
  revokedAt : Option Time := none
  note : Option String := none
  deriving DecidableEq

structure Subject where
  xid : String
  title : String
  orgId : Option ℤ
  ownerUserId : Option ℤ
  visibility : String

/-- `_SUBJECT_TABLES`. -/
def subjectTables : List (String × String) :=
  [("test", "tests"), ("passage", "passages"), ("audio_track", "audio_tracks"),
    ("question_group", "question_groups"), ("question", "questions"),
    ("cue_card_set", "cue_card_sets"), ("band_map", "band_maps")]

def isoText (t : Time) : String := .ofList (isoformat t)

/-- `iso`: `+00:00` is written `Z`. -/
def iso (t : Time) : String := .ofList ((isoformat t).take ((isoformat t).length - 6) ++ ['Z'])

example : iso 1782894600250000 = "2026-07-01T08:30:00.250000Z" := by decide +kernel

def live (grants : List GrantRow) : List GrantRow := grants.filter (fun g => g.revokedAt = none)

/-- The tables the listing reads. The database reads back a moment it has given out, and answers a
query in an order of its own among the grants of one moment. -/
structure Sharing where
  grants : List GrantRow
  subjects : String → ℤ → Option Subject
  organizations : ℤ → Option String
  users : ℤ → Option (Option String × Option String)
  timestamptz : String → Option Time
  answers : Answers GrantRow.grantedAt (live grants)
  reads_back : ∀ g ∈ live grants, timestamptz (isoText g.grantedAt) = some g.grantedAt

/-- Whoever asks; a membership carries a role that `org_memberships` admits. -/
structure Reader where
  actor : Principal
  named : ∀ raw ∈ actor.roles.values, Returns (roleNamed raw)

inductive Direction where
  | granted | received
  deriving DecidableEq

/-- `Query(50, ge=1, le=200)`. -/
structure PageSize where
  limit : ℕ
  least : 1 ≤ limit
  most : limit ≤ 200

structure Item where
  xid : String
  subjectType : String
  subjectXid : String
  subjectTitle : String
  granteeKind : String
  granteeName : Option String
  permission : String
  grantedAt : String
  expiresAt : Option String
  note : Option String
  deriving DecidableEq

/-! ## One row -/

def grantSubject (db : Sharing) (subjectType : String) (subjectId : ℤ) : Option Subject :=
  match subjectTables.find? (fun t => t.1 = subjectType) with
  | none => none
  | some (_, table) => db.subjects table subjectId

def granteeName (db : Sharing) (kind : String) (granteeId : Option ℤ) : Option String :=
  if kind = "public" then some "Everyone"
  else
    match granteeId with
    | none => none
    | some id =>
      if kind = "org" then db.organizations id
      else
        match db.users id with
        | none => none
        | some (given, family) =>
          let name := stripChars " " (given.getD "" ++ " " ++ family.getD "")
          if name = "" then none else some name

abbrev Grantees := Dict (String × Option ℤ) (Option String)

def shareable (reader : Reader) (subject : Subject) : Except Raised Bool :=
  Decision.allowed <$> check reader.actor .share
    { orgId := subject.orgId, ownerUserId := subject.ownerUserId, visibility := subject.visibility }
    Dict.empty

def toMe (reader : Reader) (row : GrantRow) : Bool :=
  row.granteeKind = "org" ∧ row.granteeId.any (fun id => reader.actor.orgIds.contains id)

def render (subject : Subject) (name : Option String) (row : GrantRow) : Item where
  xid := row.xid
  subjectType := row.subjectType
  subjectXid := subject.xid
  subjectTitle := subject.title
  granteeKind := row.granteeKind
  granteeName := name
  permission := row.permission
  grantedAt := iso row.grantedAt
  expiresAt := row.expiresAt.map iso
  note := row.note

def grantRow (db : Sharing) (reader : Reader) (row : GrantRow) (direction : Direction)
    (seenGrantees : Grantees) : Except Raised (Option Item × Grantees) :=
  match grantSubject db row.subjectType row.subjectId with
  | none => .ok (none, seenGrantees)
  | some subject => do
    let mine ← shareable reader subject
    if direction = .granted ∧ ¬ mine then return (none, seenGrantees)
    if direction = .received ∧ ¬ toMe reader row then return (none, seenGrantees)
    let key := (row.granteeKind, row.granteeId)
    let seenGrantees :=
      if (seenGrantees.get? key).isSome then seenGrantees
      else seenGrantees.put key (granteeName db row.granteeKind row.granteeId)
    return (some (render subject ((seenGrantees.get? key).getD none) row), seenGrantees)

/-! ## The listing -/

/-- A batch of raw rows, newest first, strictly below `after`. -/
def fetch (db : Sharing) (after : Option String) : Except Raised (List GrantRow) :=
  match after with
  | none => .ok ((db.answers.answer none).take 200)
  | some raw =>
    match db.timestamptz raw with
    | none => .error (.domain (.integrity "invalid input syntax for type timestamp with time zone"))
    | some t => .ok ((db.answers.answer (some t)).take 200)

structure Page where
  items : List Item
  seenGrantees : Grantees
  nextCursor : Option String

def takeRows (db : Sharing) (reader : Reader) (direction : Direction) (limit : ℕ) :
    List GrantRow → Page → Except Raised Page
  | [], page => .ok page
  | row :: batch, page => do
    let (item, seen) ← grantRow db reader row direction page.seenGrantees
    match item with
    | none => takeRows db reader direction limit batch { page with seenGrantees := seen }
    | some item =>
      let items := page.items ++ [item]
      if items.length = limit then return ⟨items, seen, some (encodeCursor (.moment row.grantedAt))⟩
      else takeRows db reader direction limit batch { page with items, seenGrantees := seen }

/-- `while len(items) < limit`; `fuel` bounds the batches, and a loop that needs more is `none`. -/
def takeBatches (db : Sharing) (reader : Reader) (direction : Direction) (limit : ℕ) :
    ℕ → Option String → Page → Except Raised (Option Page)
  | 0, _, _ => .ok none
  | fuel + 1, after, page =>
    if page.items.length < limit then do
      let batch ← fetch db after
      match batch.getLast? with
      | none => return some page
      | some last =>
        let page ← takeRows db reader direction limit batch page
        if batch.length < 200 then return some page
        else takeBatches db reader direction limit fuel (some (isoText last.grantedAt)) page
    else .ok (some page)

def listGrants (db : Sharing) (reader : Reader) (direction : Direction) (size : PageSize)
    (fuel : ℕ) (cursor : Option String) : Except Raised (Option (List Item × Option String)) :=
  Option.map (fun page => (page.items, page.nextCursor)) <$>
    takeBatches db reader direction size.limit fuel (decodeCursor cursor) ⟨[], Dict.empty, none⟩

/-! ## What is listed -/

section
variable (db : Sharing) (reader : Reader) (direction : Direction)

def maySee (row : GrantRow) : Bool :=
  match grantSubject db row.subjectType row.subjectId with
  | none => false
  | some subject =>
    match direction with
    | .granted =>
      match shareable reader subject with
      | .ok mine => mine
      | .error _ => false
    | .received => toMe reader row

def rendered (row : GrantRow) : Option Item :=
  (grantSubject db row.subjectType row.subjectId).map
    (fun subject => render subject (granteeName db row.granteeKind row.granteeId) row)

/-- The pages from a cursor on, until one comes without a cursor. -/
inductive Followed (size : PageSize) : Option String → List (List Item) → Prop
  | last {cursor : Option String} {items : List Item}
      (h : listGrants db reader direction size ((live db.grants).length + 1) cursor =
        .ok (some (items, none))) :
      Followed size cursor [items]
  | more {cursor : Option String} {items : List Item} {next : String} {pages : List (List Item)}
      (h : listGrants db reader direction size ((live db.grants).length + 1) cursor =
        .ok (some (items, some next)))
      (tail : Followed size (some next) pages) : Followed size cursor (items :: pages)

/-- No batch loop goes on for ever, and the cursors lead through every grant that may be seen,
once, newest first. -/
structure Listed (size : PageSize) : Prop where
  ends : ∀ cursor fuel, (live db.grants).length < fuel →
    listGrants db reader direction size fuel cursor ≠ .ok none
  all : ∃ pages, ∃ read : List GrantRow, Followed db reader direction size none pages ∧
    read.Perm ((live db.grants).filter (maySee db reader direction)) ∧
    read.Pairwise (fun a b => b.grantedAt ≤ a.grantedAt) ∧
    pages.flatten.map some = read.map (rendered db)

/-- The raw rows that the listing goes through, a batch or the part of one that filled a page at
a time. -/
def walk (size : PageSize) : List (List GrantRow) :=
  readings db.answers (maySee db reader direction) 200 size.limit ((live db.grants).length + 1)
    none size.limit

/-- No batch and no page ends at a grant whose moment it shares with one left unread that may be
seen. -/
def Untied (size : PageSize) : Prop :=
  Unbroken db.answers (maySee db reader direction) none (walk db reader direction size)

end

variable {db : Sharing} {reader : Reader} {direction : Direction} {size : PageSize}

/-! ## One row, read -/

def Named (db : Sharing) (seen : Grantees) : Prop :=
  ∀ kind id name, seen.get? (kind, id) = some name → name = granteeName db kind id

def look (db : Sharing) (row : GrantRow) (seen : Grantees) : Grantees :=
  if (seen.get? (row.granteeKind, row.granteeId)).isSome then seen
  else seen.put (row.granteeKind, row.granteeId) (granteeName db row.granteeKind row.granteeId)

theorem named_empty : Named db Dict.empty := by
  intro kind id name h
  rw [Dict.get?_empty] at h
  cases h

theorem named_look {seen : Grantees} (h : Named db seen) (row : GrantRow) :
    Named db (look db row seen) := by
  intro kind id name hname
  unfold look at hname
  split at hname
  · exact h kind id name hname
  · rw [Dict.get?_put] at hname
    split at hname
    · next heq =>
      cases heq
      exact (Option.some.inj hname).symm
    · exact h kind id name hname

theorem get?_look {seen : Grantees} (h : Named db seen) (row : GrantRow) :
    (look db row seen).get? (row.granteeKind, row.granteeId) =
      some (granteeName db row.granteeKind row.granteeId) := by
  unfold look
  split
  · next hsome =>
    obtain ⟨name, hname⟩ := Option.isSome_iff_exists.1 hsome
    rw [hname, h _ _ _ hname]
  · exact Dict.get?_put_self _ _ _

theorem returns_shareable (reader : Reader) (subject : Subject) :
    Returns (shareable reader subject) := by
  have hrole : Returns (roleOf reader.actor subject.orgId) := by
    unfold roleOf
    split
    · exact returns_ok _
    · split
      · exact returns_ok _
      · split
        · exact returns_ok _
        · next raw hraw =>
          split
          · exact returns_ok _
          · refine returns_map.2 (reader.named raw ?_)
            exact List.mem_map.2 ⟨_, Dict.get?_eq_some.1 hraw, rfl⟩
  unfold shareable check
  rw [returns_map]
  split
  · exact returns_ok _
  · obtain ⟨role, hok⟩ := hrole
    rw [hok]
    cases role <;> exact returns_ok _

theorem grantRow_eq {seen : Grantees} (h : Named db seen) (row : GrantRow) :
    ∃ seen', Named db seen' ∧ grantRow db reader row direction seen =
      .ok (if maySee db reader direction row then rendered db row else none, seen') := by
  unfold grantRow maySee rendered
  cases hsubject : grantSubject db row.subjectType row.subjectId with
  | none => exact ⟨seen, h, rfl⟩
  | some subject =>
    obtain ⟨mine, hmine⟩ := returns_shareable reader subject
    have hget := get?_look h row
    unfold look at hget
    simp only [hmine, Option.map_some]
    cases direction with
    | granted =>
      cases mine with
      | false => exact ⟨seen, h, rfl⟩
      | true =>
        refine ⟨look db row seen, named_look h row, ?_⟩
        simp [bind, Except.bind, pure, Except.pure, hget, look]
    | received =>
      cases htome : toMe reader row with
      | false =>
        refine ⟨seen, h, ?_⟩
        simp [bind, Except.bind, pure, Except.pure]
      | true =>
        refine ⟨look db row seen, named_look h row, ?_⟩
        simp [bind, Except.bind, pure, Except.pure, hget, look]

theorem rendered_of_maySee {row : GrantRow} (h : maySee db reader direction row) :
    ∃ item, rendered db row = some item := by
  unfold maySee at h
  unfold rendered
  split at h
  · cases h
  · next subject hsubject =>
    rw [hsubject]
    exact ⟨_, rfl⟩

/-! ## One batch -/

def adds (db : Sharing) (reader : Reader) (direction : Direction) (read : List GrantRow) :
    List Item := (read.filter (maySee db reader direction)).filterMap (rendered db)

theorem map_some_adds (read : List GrantRow) : (adds db reader direction read).map some =
    (read.filter (maySee db reader direction)).map (rendered db) := by
  unfold adds
  induction read with
  | nil => rfl
  | cons row read ih =>
    by_cases hrow : maySee db reader direction row
    · obtain ⟨item, hitem⟩ := rendered_of_maySee hrow
      rw [List.filter_cons_of_pos hrow, List.filterMap_cons_some hitem, List.map_cons, ih,
        List.map_cons, hitem]
    · rw [List.filter_cons_of_neg hrow, ih]

theorem length_adds (read : List GrantRow) : (adds db reader direction read).length =
    (read.filter (maySee db reader direction)).length := by
  rw [← List.length_map some, map_some_adds, List.length_map]

theorem adds_cons_of_pos {row : GrantRow} {item : Item} (h : maySee db reader direction row)
    (hitem : rendered db row = some item) (read : List GrantRow) :
    adds db reader direction (row :: read) = item :: adds db reader direction read := by
  unfold adds
  rw [List.filter_cons_of_pos h, List.filterMap_cons_some hitem]

theorem adds_cons_of_neg {row : GrantRow} (h : ¬ maySee db reader direction row)
    (read : List GrantRow) :
    adds db reader direction (row :: read) = adds db reader direction read := by
  unfold adds
  rw [List.filter_cons_of_neg h]

theorem resume_cons {row : GrantRow} {read : List GrantRow} (h : read ≠ []) :
    resume GrantRow.grantedAt (row :: read) = resume GrantRow.grantedAt read := by
  unfold resume
  rw [List.getLast?_cons_of_ne_nil h]

def momentCursor (after : Option Time) : Option String :=
  after.map (fun t => encodeCursor (.moment t))

/-- The cursor after a batch, if it fills the `room` that a page has left. -/
def cursorAfter (db : Sharing) (reader : Reader) (direction : Direction) (room : ℕ)
    (read : List GrantRow) : Option String :=
  if (adds db reader direction read).length = room then
    momentCursor (resume GrantRow.grantedAt read)
  else none

theorem cursorAfter_cons_of_pos {row : GrantRow} {item : Item} {room : ℕ} {read : List GrantRow}
    (h : maySee db reader direction row) (hitem : rendered db row = some item)
    (hne : (adds db reader direction read).length = room → read ≠ []) :
    cursorAfter db reader direction (room + 1) (row :: read) =
      cursorAfter db reader direction room read := by
  unfold cursorAfter
  rw [adds_cons_of_pos h hitem, List.length_cons]
  by_cases hfull : (adds db reader direction read).length = room
  · rw [if_pos hfull, if_pos (congrArg Nat.succ hfull), resume_cons (hne hfull)]
  · rw [if_neg hfull, if_neg (fun q => hfull (Nat.succ.inj q))]

theorem cursorAfter_cons_of_neg {row : GrantRow} {room : ℕ} {read : List GrantRow}
    (h : ¬ maySee db reader direction row) :
    cursorAfter db reader direction (room + 1) (row :: read) =
      cursorAfter db reader direction (room + 1) read := by
  unfold cursorAfter
  rw [adds_cons_of_neg h]
  by_cases hfull : (adds db reader direction read).length = room + 1
  · have hne : read ≠ [] := by
      rintro rfl
      cases hfull
    rw [if_pos hfull, if_pos hfull, resume_cons hne]
  · rw [if_neg hfull, if_neg hfull]

theorem takeRows_eq {limit room : ℕ} (batch : List GrantRow) {items : List Item}
    {seen : Grantees} (hroom : items.length + (room + 1) = limit) (hnamed : Named db seen) :
    ∃ seen', Named db seen' ∧ takeRows db reader direction limit batch ⟨items, seen, none⟩ =
      .ok ⟨items ++ adds db reader direction (upTo (maySee db reader direction) (room + 1) batch),
        seen', cursorAfter db reader direction (room + 1)
          (upTo (maySee db reader direction) (room + 1) batch)⟩ := by
  induction batch generalizing items seen room with
  | nil =>
    refine ⟨seen, hnamed, ?_⟩
    change Except.ok _ = Except.ok (Page.mk (items ++ []) _ none)
    rw [List.append_nil]
  | cons row batch ih =>
    obtain ⟨seen', hnamed', hrow⟩ :
        ∃ seen', Named db seen' ∧ grantRow db reader row direction seen = .ok (_, seen') :=
      grantRow_eq hnamed row
    unfold takeRows upTo
    simp only [hrow, bind, Except.bind]
    by_cases hshown : maySee db reader direction row
    · obtain ⟨item, hitem⟩ := rendered_of_maySee hshown
      simp only [hshown, if_true, hitem, adds_cons_of_pos hshown hitem]
      have hlength : (items ++ [item]).length = items.length + 1 := by
        rw [List.length_append, List.length_singleton]
      cases room with
      | zero =>
        -- the page is full, and nothing more is read
        refine ⟨seen', hnamed', ?_⟩
        have hnil : upTo (maySee db reader direction) 0 batch = [] := by cases batch <;> rfl
        rw [if_pos (by omega), hnil]
        unfold cursorAfter
        rw [adds_cons_of_pos hshown hitem]
        rfl
      | succ room =>
        obtain ⟨seen'', hnamed'', htail⟩ := @ih room (items ++ [item]) seen' (by omega) hnamed'
        refine ⟨seen'', hnamed'', ?_⟩
        rw [if_neg (by omega), htail, List.append_assoc, List.singleton_append,
          cursorAfter_cons_of_pos hshown hitem]
        rintro hfull hnil
        rw [hnil] at hfull
        cases hfull
    · simp only [hshown, if_false, Bool.false_eq_true, adds_cons_of_neg hshown,
        cursorAfter_cons_of_neg hshown]
      exact ih hroom hnamed'

/-! ## Batches, pages and the walk -/

theorem isoText_ne_empty (t : Time) : isoText t ≠ "" := by
  intro h
  have hlist := congrArg String.toList h
  unfold isoText at hlist
  rw [String.toList_ofList] at hlist
  have hlength := congrArg List.length hlist
  unfold isoformat at hlength
  simp at hlength

theorem decodeCursor_moment (t : Time) :
    decodeCursor (some (encodeCursor (.moment t))) = some (isoText t) :=
  decodeCursor_encodeText (isoText_ne_empty t)

theorem fetch_isoText {row : GrantRow} (h : row ∈ live db.grants) :
    fetch db (some (isoText row.grantedAt)) =
      .ok ((db.answers.answer (some row.grantedAt)).take 200) := by
  unfold fetch
  simp only [db.reads_back row h]

abbrev readFrom (db : Sharing) (reader : Reader) (direction : Direction) (limit fuel : ℕ)
    (after : Option Time) (room : ℕ) : List (List GrantRow) :=
  readings db.answers (maySee db reader direction) 200 limit fuel after room

abbrev left (db : Sharing) (after : Option Time) : ℕ :=
  (under GrantRow.grantedAt (live db.grants) after).length

theorem takeBatches_full {limit fuel : ℕ} {raw : Option String} {page : Page}
    (hfull : limit ≤ page.items.length) (hfuel : 0 < fuel) :
    takeBatches db reader direction limit fuel raw page = .ok (some page) := by
  obtain ⟨fuel, rfl⟩ := Nat.exists_eq_add_of_lt hfuel
  unfold takeBatches
  rw [if_neg (Nat.not_lt.2 hfull)]

theorem takeBatches_succ {limit fuel : ℕ} {raw : Option String} {page page' : Page}
    {batch : List GrantRow} {last : GrantRow} (hroom : page.items.length < limit)
    (hfetch : fetch db raw = .ok batch) (hlast : batch.getLast? = some last)
    (htake : takeRows db reader direction limit batch page = .ok page') :
    takeBatches db reader direction limit (fuel + 1) raw page =
      if batch.length < 200 then .ok (some page')
      else takeBatches db reader direction limit fuel (some (isoText last.grantedAt)) page' := by
  rw [takeBatches, if_pos hroom, hfetch]
  simp only [bind, Except.bind, hlast, htake]
  rfl

/-- A page that has come to its end: the cursor leads to what is left. -/
structure Paged (db : Sharing) (reader : Reader) (direction : Direction) (limit : ℕ)
    (after : Option Time) (items : List Item) (reads : List (List GrantRow)) (page : Page) :
    Prop where
  split : ∃ first, page.items = items ++ adds db reader direction first.flatten ∧
    ((page.nextCursor = none ∧ reads = first) ∨
      ∃ row ∈ live db.grants, left db (some row.grantedAt) < left db after ∧
        page.nextCursor = some (encodeCursor (.moment row.grantedAt)) ∧
        ∃ fuel, left db (some row.grantedAt) < fuel ∧
          reads = first ++ readFrom db reader direction limit fuel (some row.grantedAt) limit)

theorem adds_append (read read' : List GrantRow) : adds db reader direction (read ++ read') =
    adds db reader direction read ++ adds db reader direction read' := by
  unfold adds
  rw [List.filter_append, List.filterMap_append]

theorem Paged.cons {limit : ℕ} {after next : Option Time} {items : List Item}
    {read : List GrantRow} {reads : List (List GrantRow)} {page : Page}
    (h : Paged db reader direction limit next (items ++ adds db reader direction read) reads page)
    (hless : left db next < left db after) :
    Paged db reader direction limit after items (read :: reads) page := by
  obtain ⟨first, hitems, hend⟩ := h.split
  refine ⟨read :: first, ?_, ?_⟩
  · rw [hitems, List.flatten_cons, adds_append, List.append_assoc]
  · rcases hend with ⟨hcursor, rfl⟩ | ⟨row, hrow, hlt, hcursor, fuel, hfuel, rfl⟩
    · exact .inl ⟨hcursor, rfl⟩
    · exact .inr ⟨row, hrow, hlt.trans hless, hcursor, fuel, hfuel, rfl⟩

theorem takeBatches_eq {limit fuel room : ℕ} {raw : Option String} {after : Option Time}
    {items : List Item} {seen : Grantees} (hroom : items.length + (room + 1) = limit)
    (hnamed : Named db seen)
    (hfetch : fetch db raw = .ok ((db.answers.answer after).take 200))
    (hfuel : left db after < fuel) :
    ∃ page, takeBatches db reader direction limit fuel raw ⟨items, seen, none⟩ =
        .ok (some page) ∧
      Paged db reader direction limit after items
        (readFrom db reader direction limit fuel after (room + 1)) page := by
  induction fuel generalizing raw after items seen room with
  | zero => exact absurd hfuel (Nat.not_lt_zero _)
  | succ fuel ih =>
    unfold readFrom readings
    dsimp only
    generalize hb : (db.answers.answer after).take 200 = batch at *
    by_cases hbatch : batch = []
    · rw [takeBatches, if_pos (by simp only; omega), hfetch, if_pos hbatch]
      simp only [hbatch, bind, Except.bind]
      exact ⟨_, rfl, [[]], (List.append_nil _).symm, .inl ⟨rfl, rfl⟩⟩
    · obtain ⟨last, hlast⟩ : ∃ last, batch.getLast? = some last :=
        ⟨_, List.getLast?_eq_some_getLast hbatch⟩
      obtain ⟨seen', hnamed', htake⟩ : ∃ seen', Named db seen' ∧ _ = Except.ok _ :=
        takeRows_eq batch hroom hnamed
      obtain ⟨k, rest, hk, hrest⟩ := exists_read (maySee db reader direction) (Nat.succ_pos room)
        (by rw [hb]; exact hbatch)
      have hless : left db (some k) < left db after := length_under_lt hrest hk
      rw [hb] at hk hrest
      have hlive : ∀ row ∈ upTo (maySee db reader direction) (room + 1) batch,
          row ∈ live db.grants := by
        intro row hrow
        have hmem : row ∈ batch := (upTo_first _ _ _).subset hrow
        rw [← hb] at hmem
        exact (mem_answer.1 (List.mem_of_mem_take hmem)).1
      have hle : (adds db reader direction
          (upTo (maySee db reader direction) (room + 1) batch)).length ≤ room + 1 := by
        rw [length_adds]
        exact filter_upTo_le _ _
      have hself : (adds db reader direction
          (upTo (maySee db reader direction) (room + 1) batch)).length < room + 1 →
          upTo (maySee db reader direction) (room + 1) batch = batch := by
        rw [length_adds]
        exact upTo_eq_self
      rw [takeBatches_succ (by simp only; omega) hfetch hlast htake, ← length_adds, if_neg hbatch]
      generalize upTo (maySee db reader direction) (room + 1) batch = read at *
      unfold cursorAfter
      by_cases hfull : (adds db reader direction read).length = room + 1
      · -- the page is full
        obtain ⟨init, row, rfl, rfl⟩ := resume_eq_some hk
        rw [if_pos hfull, hfull, Nat.sub_self, if_pos rfl, hk,
          takeBatches_full (by simp only [List.length_append]; omega) (by omega), ite_self]
        refine ⟨_, rfl, [init ++ [row]], by rw [List.flatten_singleton], .inr ?_⟩
        exact ⟨row, hlive row (List.mem_append_right _ List.mem_cons_self), hless, rfl, fuel,
          by omega, rfl⟩
      · have hleft : room + 1 - (adds db reader direction read).length ≠ 0 := by omega
        rw [if_neg hfull, if_neg hleft]
        have hread := hself (by omega)
        subst hread
        by_cases hshort : read.length < 200
        · rw [if_pos hshort, if_pos hshort]
          exact ⟨_, rfl, [read], by rw [List.flatten_singleton], .inl ⟨rfl, rfl⟩⟩
        · rw [if_neg hshort, if_neg hshort, hk]
          obtain ⟨init, row, rfl, rfl⟩ := resume_eq_some hk
          rw [List.getLast?_concat] at hlast
          cases hlast
          have hrow := hlive last (List.mem_append_right _ List.mem_cons_self)
          obtain ⟨room', hroom'⟩ : ∃ room',
              room + 1 - (adds db reader direction (init ++ [last])).length = room' + 1 :=
            ⟨room - (adds db reader direction (init ++ [last])).length, by omega⟩
          have hitems : (items ++ adds db reader direction (init ++ [last])).length +
              (room' + 1) = limit := by
            rw [List.length_append]
            omega
          rw [hroom']
          obtain ⟨page, hpage, hpaged⟩ := ih hitems hnamed' (fetch_isoText hrow) (by omega)
          exact ⟨page, hpage, hpaged.cons hless⟩

theorem left_le (db : Sharing) (after : Option Time) : left db after ≤ (live db.grants).length := by
  cases after with
  | none => exact le_rfl
  | some t => exact List.length_filter_le _ _

theorem listGrants_eq {fuel : ℕ} {cursor : Option String} {after : Option Time}
    (hfetch : fetch db (decodeCursor cursor) = .ok ((db.answers.answer after).take 200))
    (hfuel : left db after < fuel) :
    ∃ page, listGrants db reader direction size fuel cursor =
        .ok (some (page.items, page.nextCursor)) ∧
      Paged db reader direction size.limit after []
        (readFrom db reader direction size.limit fuel after size.limit) page := by
  obtain ⟨limit, hleast, hmost⟩ := size
  obtain ⟨room, rfl⟩ := Nat.exists_eq_add_of_le' hleast
  have hroom : ([] : List Item).length + (room + 1) = room + 1 := Nat.zero_add _
  obtain ⟨page, hpage, hpaged⟩ := takeBatches_eq hroom named_empty hfetch hfuel
  refine ⟨page, ?_, hpaged⟩
  unfold listGrants
  rw [hpage]
  rfl

theorem listGrants_ends (size : PageSize) {fuel : ℕ} (h : (live db.grants).length < fuel)
    (cursor : Option String) : listGrants db reader direction size fuel cursor ≠ .ok none := by
  intro hnone
  have hread : ∀ after, fetch db (decodeCursor cursor) ≠
      .ok ((db.answers.answer after).take 200) := by
    intro after hfetch
    obtain ⟨page, hpage, _⟩ : ∃ page, listGrants db reader direction size fuel cursor = _ ∧ _ :=
      listGrants_eq hfetch (lt_of_le_of_lt (left_le db after) h)
    rw [hnone] at hpage
    cases hpage
  cases hraw : decodeCursor cursor with
  | none =>
    rw [hraw] at hread
    exact hread none rfl
  | some raw =>
    rw [hraw] at hread
    cases hcast : db.timestamptz raw with
    | some t =>
      refine hread (some t) ?_
      unfold fetch
      simp only [hcast]
    | none =>
      obtain ⟨fuel, rfl⟩ := Nat.exists_eq_add_of_lt h
      have hleast := size.least
      unfold listGrants at hnone
      rw [hraw, takeBatches, if_pos (by simp only [List.length_nil]; omega), fetch] at hnone
      simp only [hcast] at hnone
      cases hnone

theorem followed_readings {fuel : ℕ} {cursor : Option String} {after : Option Time}
    (hfetch : fetch db (decodeCursor cursor) = .ok ((db.answers.answer after).take 200))
    (hfuel : left db after < fuel) :
    ∃ pages, Followed db reader direction size cursor pages ∧
      pages.flatten = adds db reader direction
        (readFrom db reader direction size.limit fuel after size.limit).flatten := by
  induction hn : left db after using Nat.strong_induction_on generalizing cursor after fuel with
  | _ n ih =>
    subst hn
    have hleast := size.least
    have hle := left_le db after
    obtain ⟨page, hpage, hpaged⟩ : ∃ page, listGrants db reader direction size _ cursor = _ ∧ _ :=
      listGrants_eq hfetch (Nat.lt_succ_of_le hle)
    have hsame : readFrom db reader direction size.limit fuel after size.limit =
        readFrom db reader direction size.limit ((live db.grants).length + 1) after size.limit :=
      readings_fuel hleast hleast hfuel (Nat.lt_succ_of_le hle)
    rw [hsame]
    obtain ⟨first, hitems, hend⟩ := hpaged.split
    rw [List.nil_append] at hitems
    rcases hend with ⟨hcursor, hreads⟩ | ⟨row, hrow, hlt, hcursor, fuel', hfuel', hreads⟩
    · rw [hcursor] at hpage
      refine ⟨[page.items], .last hpage, ?_⟩
      rw [List.flatten_singleton, hitems, ← hreads]
    · rw [hcursor] at hpage
      have hnext : fetch db (decodeCursor (some (encodeCursor (.moment row.grantedAt)))) =
          .ok ((db.answers.answer (some row.grantedAt)).take 200) := by
        rw [decodeCursor_moment]
        exact fetch_isoText hrow
      obtain ⟨pages, hpages, hflatten⟩ := ih _ hlt hnext hfuel' rfl
      refine ⟨page.items :: pages, .more hpage hpages, ?_⟩
      rw [List.flatten_cons, hflatten, hitems, ← adds_append, ← List.flatten_append, ← hreads]

theorem Followed.unique {cursor : Option String} {pages pages' : List (List Item)}
    (h : Followed db reader direction size cursor pages)
    (h' : Followed db reader direction size cursor pages') : pages = pages' := by
  induction h generalizing pages' with
  | last h =>
    cases h' with
    | last h' =>
      rw [h] at h'
      cases h'
      rfl
    | more h' _ =>
      rw [h] at h'
      cases h'
  | more h _ ih =>
    cases h' with
    | last h' =>
      rw [h] at h'
      cases h'
    | more h' tail' =>
      rw [h] at h'
      cases h'
      rw [ih tail']

/-! ## Complete listings -/

theorem reading_walk (db : Sharing) (reader : Reader) (direction : Direction) (size : PageSize) :
    Reading db.answers none (walk db reader direction size) :=
  reading_readings (by decide) size.least size.least (Nat.lt_succ_self _)

theorem listed_iff_perm : Listed db reader direction size ↔
    ((walk db reader direction size).flatten.filter (maySee db reader direction)).Perm
      ((live db.grants).filter (maySee db reader direction)) := by
  obtain ⟨pages, hpages, hflatten⟩ : ∃ pages, Followed db reader direction size none pages ∧
      pages.flatten = adds db reader direction (walk db reader direction size).flatten :=
    followed_readings rfl (Nat.lt_succ_self _)
  have hshown : (adds db reader direction (walk db reader direction size).flatten).map some =
      ((walk db reader direction size).flatten.filter (maySee db reader direction)).map
        (rendered db) := map_some_adds _
  constructor
  · rintro ⟨_, pages', read, hpages', hperm, _, hread⟩
    have hlength := congrArg List.length hread
    rw [← hpages.unique hpages', hflatten, hshown, List.length_map, List.length_map,
      hperm.length_eq] at hlength
    have hsub := (reading_walk db reader direction size).subperm.filter (maySee db reader direction)
    exact hsub.perm_of_length_le hlength.ge
  · intro hperm
    refine ⟨fun cursor fuel hfuel => listGrants_ends size hfuel cursor, pages, _, hpages, hperm,
      ?_, ?_⟩
    · exact (reading_walk db reader direction size).sorted.sublist List.filter_sublist
    · rw [hflatten, hshown]

/-- The listing is complete exactly where no batch and no page ends between grants of one moment
the later of which the reader may see. -/
theorem listed_iff_untied (db : Sharing) (reader : Reader) (direction : Direction)
    (size : PageSize) :
    Listed db reader direction size ↔ Untied db reader direction size := by
  rw [listed_iff_perm]
  exact (reading_walk db reader direction size).complete_iff

/-! ## Two grants of one statement -/

def twice : List GrantRow :=
  [⟨1, "a", "test", 3, "org", some 8, "view", 5, none, none, none⟩,
    ⟨2, "b", "test", 3, "org", some 9, "view", 5, none, none, none⟩]

def tiedGrants : Sharing where
  grants := twice
  subjects _ _ := some ⟨"t", "Mock test", some 7, none, "org_private"⟩
  organizations _ := some "A centre"
  users _ := none
  timestamptz _ := some 5
  answers := {
    answer := fun after => under GrantRow.grantedAt twice after
    perm := fun _ => .refl _
    sorted := by
      have hsorted : twice.Pairwise (fun a b => b.grantedAt ≤ a.grantedAt) := by decide
      intro after
      cases after with
      | none => exact hsorted
      | some k => exact hsorted.sublist List.filter_sublist }
  reads_back := by decide

def centreAdmin : Reader where
  actor :=
    { userId := 1, userXid := "u", orgIds := [7], roles := Dict.empty.put 7 "centre_admin" }
  named := by decide

/-- A page of one grant, and the grant made in the same instant is never shown. -/
theorem tied_grant_lost : ¬ ∀ db reader direction size, Listed db reader direction size := by
  intro h
  have hperm := listed_iff_perm.1 (h tiedGrants centreAdmin .granted ⟨1, by decide, by decide⟩)
  exact absurd hperm.length_eq (by decide)

end IeltsHub.SharingList
