import IeltsHub.MediaGrants
import IeltsHub.PagingWalk

set_option autoImplicit false

/-!
# What a grant is good for

Whoever does not hold the key presents only texts whose MACs were handed out. For such a text a
grant is given exactly when the text was issued for that user and that media and has not expired,
and everything else is forbidden: this holds where the text is read without raising.
-/
namespace IeltsHub.MediaGrants
open PyExc PyText PyTime PyDict PyValue PyJson JsonText PagingCursor PagingWalk PlatformErrors
open PlatformRefusals
open ClickCallbacks (isAscii compareDigest)

/-! ## Parts -/

theorem splitOnChar_ne_nil (sep : Char) (word cs : List Char) : splitOnChar sep word cs ≠ [] := by
  induction cs generalizing word with
  | nil => simp [splitOnChar]
  | cons c cs ih =>
    rw [splitOnChar]
    split
    · exact List.cons_ne_nil _ _
    · exact ih _

theorem intercalate_splitOnChar (sep : Char) (word cs : List Char) :
    List.intercalate [sep] (splitOnChar sep word cs) = word.reverse ++ cs := by
  induction cs generalizing word with
  | nil => simp [splitOnChar]
  | cons c cs ih =>
    rw [splitOnChar]
    split
    · next h =>
      obtain ⟨first, rest, hsplit⟩ := List.exists_cons_of_ne_nil (splitOnChar_ne_nil sep [] cs)
      have hnil := ih []
      rw [hsplit] at hnil ⊢
      rw [List.intercalate_cons_cons, hnil, h]
      simp
    · rw [ih]
      simp

theorem join_splitOn (sep : Char) (s : String) :
    join (String.singleton sep) (splitOn sep s) = s := by
  have hid : String.toList ∘ String.ofList = id := by
    funext cs
    exact String.toList_ofList
  unfold join splitOn
  rw [List.map_map, String.toList_singleton, hid, List.map_id, intercalate_splitOnChar]
  exact String.ofList_toList

theorem eq_join_of_splitOn {s : String} {parts : List String} (h : splitOn '.' s = parts) :
    s = join "." parts := by
  rw [← h]
  exact (join_splitOn '.' s).symm

theorem toList_join_pair (a b : String) :
    (join "." [a, b]).toList = a.toList ++ '.' :: b.toList := by
  simp [join, List.intercalate]

theorem toList_join_triple (a b c : String) :
    (join "." [a, b, c]).toList = a.toList ++ '.' :: (b.toList ++ '.' :: c.toList) := by
  simp [join, List.intercalate]

/-! ## Seconds -/

theorem expiry_bound {now : Time} {ttl e : ℤ} (h : expiry now ttl = some e) :
    e.natAbs < 10 ^ 12 := by
  unfold expiry at h
  dsimp only at h
  split at h
  · next hdate =>
    cases h
    have hspan : |now + seconds ttl| ≤ 253402300799999999 := by
      obtain ⟨hlo, hhi⟩ : -62135596800000000 ≤ now + seconds ttl ∧
          now + seconds ttl ≤ 253402300799999999 := of_decide_eq_true hdate.2
      exact abs_le.2 ⟨by linarith, hhi⟩
    have hspan' : |((now + seconds ttl : ℤ) : ℚ)| ≤ 253402300799999999 := by exact_mod_cast hspan
    have hwhole := (truncate_natAbs_le (totalSeconds (now + seconds ttl))).trans
      (abs_toDouble_le _)
    rw [abs_div, abs_of_pos (by norm_num : (0 : ℚ) < 1000000)] at hwhole
    have hlt : ((truncate (totalSeconds (now + seconds ttl))).natAbs : ℚ) < 10 ^ 12 := by
      refine lt_of_le_of_lt hwhole ?_
      linarith
    exact_mod_cast hlt
  · cases h

theorem length_toDigits {e : ℤ} (h : e.natAbs < 10 ^ 12) :
    (Nat.toDigits 10 e.natAbs).length ≤ maxStrDigits :=
  (Nat.toDigits_length 10 e.natAbs 12 (by decide) h).trans (by decide)

theorem literalDigits_toDigits (n : ℕ) : literalDigits (Nat.toDigits 10 n) =
    some ((Nat.toDigits 10 n).map (fun c => c.toNat - '0'.toNat)) := by
  have hdigits := isDigit_toDigits n
  rw [literalDigits_eq_mapM Nat.toDigits_ne_nil, mapM_decimal hdigits]
  rintro c hc rfl
  exact absurd (hdigits '_' hc) (by decide)

theorem isSpace_toString (n : ℤ) : ∀ c ∈ (toString n).toList, isSpace c = false := by
  have hdigit : ∀ c ∈ Nat.toDigits 10 n.natAbs, isSpace c = false := by
    intro c hc
    have hdecimal := decimal?_of_isDigit (isDigit_toDigits _ c hc)
    exact not_isSpace_of_isDigitChar (decimal?_isDigitChar hdecimal)
  rw [toList_toString_int]
  split
  · exact hdigit
  · intro c hc
    rcases List.mem_cons.1 hc with rfl | hc
    · decide
    · exact hdigit c hc

theorem signOf_toString (n : ℤ) :
    signOf (toString n).toList = (decide (n < 0), Nat.toDigits 10 n.natAbs) := by
  rw [toList_toString_int]
  split
  · next h =>
    have hhead := isDigit_toDigits n.natAbs
    have hneg : decide (n < 0) = false := by simpa using h
    cases hlist : Nat.toDigits 10 n.natAbs with
    | nil => exact absurd hlist Nat.toDigits_ne_nil
    | cons d ds =>
      have hd := hhead d (by rw [hlist]; exact List.mem_cons_self)
      unfold signOf
      split
      · next heq => cases heq; exact absurd hd (by decide)
      · next heq => cases heq; exact absurd hd (by decide)
      · rw [hneg]
  · next h =>
    have hneg : decide (n < 0) = true := by simpa using h
    rw [hneg]
    rfl

theorem intOfText_toString_int {n : ℤ} (h : n.natAbs < 10 ^ 12) :
    (intOfText (toString n) : Except Raised ℤ) = .ok n := by
  unfold intOfText
  rw [stripBy_eq_self (isSpace_toString n), signOf_toString]
  dsimp only
  rw [literalDigits_toDigits]
  dsimp only
  rw [if_pos (by rw [List.length_map]; exact length_toDigits h), ofDigits_map,
    Nat.ofDigitChars_ten_toDigits]
  congr 1
  split
  · next hneg =>
    have := of_decide_eq_true hneg
    omega
  · next hneg =>
    have := of_decide_eq_false (Bool.eq_false_iff.2 hneg)
    omega

/-! ## What is written -/

theorem alphabet_safe : ∀ c ∈ Base64.alphabet, c ≠ '.' ∧ c ≠ ':' ∧ c.toNat < 128 := by
  have hall : Base64.alphabet.all
      (fun c => decide (c ≠ '.') && decide (c ≠ ':') && decide (c.toNat < 128)) = true := by
    decide +kernel
  intro c hc
  simpa [and_assoc] using List.all_eq_true.1 hall c hc

def Coded (s : String) : Prop := ∀ c ∈ s.toList, c ∈ Base64.alphabet

theorem coded_encodeText (raw : String) : Coded (encodeText raw) := by
  unfold Coded encodeText
  rw [String.toList_ofList]
  exact (stripPads_encode (utf8 raw)).1

theorem coded_sign (mac : Hmac) (m : String) : Coded (sign mac m) := by
  unfold Coded sign
  rw [String.toList_ofList]
  exact (stripPads_encode _).1

theorem coded_objectMac (mac : Hmac) (key : String) (e : ℤ) : Coded (objectMac mac key e) := by
  unfold objectMac
  intro c hc
  rw [String.toList_ofList] at hc
  exact coded_sign mac _ c (List.mem_of_mem_take hc)

theorem Coded.isAscii {s : String} (h : Coded s) : isAscii s = true := by
  unfold ClickCallbacks.isAscii
  rw [List.all_eq_true]
  exact fun c hc => decide_eq_true (alphabet_safe c (h c hc)).2.2

theorem Coded.dot {s : String} (h : Coded s) : '.' ∉ s.toList :=
  fun hdot => (alphabet_safe _ (h _ hdot)).1 rfl

theorem Coded.colon {s : String} (h : Coded s) : ':' ∉ s.toList :=
  fun hcolon => (alphabet_safe _ (h _ hcolon)).2.1 rfl

theorem mem_toString {n : ℤ} {c : Char} (h : c ∈ (toString n).toList) :
    c.isDigit = true ∨ c = '-' := by
  rw [toList_toString_int] at h
  split at h
  · exact .inl (isDigit_toDigits _ c h)
  · exact (List.mem_cons.1 h).symm.imp (isDigit_toDigits _ c) id

theorem unpack_encodeText {raw : String} {payload : Json} (h : loads raw.toList = some payload) :
    unpack (encodeText raw) = .ok payload := by
  have hwhole := (stripPads_encode (utf8 raw)).2
  have htext : (encodeText raw).toList = stripPads (Base64.encode (utf8 raw)) := by
    unfold encodeText
    rw [String.toList_ofList]
  unfold unpack
  simp only [(coded_encodeText raw).isAscii, if_true, htext, hwhole, Base64.decode_encode,
    Option.bind_some, ofUtf8_utf8, h]

def Issue.members (c : Issue) (e : ℤ) : List (String × Json) :=
  c.attempt ++ [("e", .int e), ("m", .str c.mediaXid), ("p", .str c.purpose),
    ("u", .str c.userXid)]

theorem attempt_cases (c : Issue) : c.attempt = [] ∨ ∃ xid, c.attempt = [("a", .str xid)] := by
  unfold Issue.attempt
  cases c.attemptXid with
  | none => exact .inl rfl
  | some xid =>
    dsimp only
    split
    · exact .inl rfl
    · exact .inr ⟨xid, rfl⟩

theorem sort_keys (u m p e : List Char) (first : List (String × List Char))
    (h : first = [] ∨ ∃ a, first = [("a", a)]) :
    (Dict.ofList ([("u", u), ("m", m), ("p", p), ("e", e)] ++ first)).entries.insertionSort
      (fun a b => textLE a.1 b.1 = true) = first ++ [("e", e), ("m", m), ("p", p), ("u", u)] := by
  have hkeys : (([("u", u), ("m", m), ("p", p), ("e", e)] ++ first).map Prod.fst).Nodup := by
    obtain rfl | ⟨a, rfl⟩ := h <;> simp
  rw [show (Dict.ofList ([("u", u), ("m", m), ("p", p), ("e", e)] ++ first)).entries = _ from
    congrArg Dict.entries (Dict.ofList_entries ⟨_, hkeys⟩)]
  have hbelow : textLE "e" "a" = false ∧ textLE "p" "a" = false ∧ textLE "p" "e" = false ∧
      textLE "m" "a" = false ∧ textLE "m" "e" = false ∧ textLE "m" "p" = true ∧
      textLE "u" "a" = false ∧ textLE "u" "e" = false ∧ textLE "u" "m" = false ∧
      textLE "u" "p" = false := by decide
  obtain rfl | ⟨a, rfl⟩ := h <;> simp [List.orderedInsert, hbelow]

theorem dumps_payload (c : Issue) (e : ℤ) : dumpsValue compactSorted (c.payload e) =
    between '\x7b' '\x7d' "," ((c.members e).map member) := by
  unfold Issue.payload Issue.members
  rw [dumpsValue]
  obtain hnone | ⟨xid, hsome⟩ := attempt_cases c
  · have hsort := sort_keys (dumpsText c.userXid) (dumpsText c.mediaXid) (dumpsText c.purpose)
      (toString e).toList [] (.inl rfl)
    rw [hnone]
    simp only [List.append_nil, dumpsMembers, dumpsValue, compactSorted, if_true] at hsort ⊢
    rw [hsort]
    simp [member, dumpsValue]
  · have hsort := sort_keys (dumpsText c.userXid) (dumpsText c.mediaXid) (dumpsText c.purpose)
      (toString e).toList [("a", dumpsText xid)] (.inr ⟨_, rfl⟩)
    rw [hsome]
    simp only [List.cons_append, List.nil_append, dumpsMembers, dumpsValue, compactSorted,
      if_true] at hsort ⊢
    rw [hsort]
    simp [member, dumpsValue]

theorem loads_payload {c : Issue} {e : ℤ} (h : e.natAbs < 10 ^ 12) :
    loads (dumps compactSorted (c.payload e)).toList = some (.obj (c.members e)) := by
  have hflat : ∀ m ∈ c.members e, Flat m.2 := by
    have hint : Flat (.int e) := length_toDigits h
    unfold Issue.members
    obtain hnone | ⟨xid, hsome⟩ := attempt_cases c
    · rw [hnone]
      simpa [Flat] using hint
    · rw [hsome]
      simpa [Flat] using hint
  unfold dumps
  rw [String.toList_ofList, dumps_payload]
  exact loads_members (by simp [Issue.members]) hflat

def Issue.packed (c : Issue) (e : ℤ) : String := encodeText (dumps compactSorted (c.payload e))

theorem splitOn_token (mac : Hmac) (c : Issue) (e : ℤ) :
    splitOn '.' (join "." [VERSION, c.packed e, sign mac (c.packed e)]) =
      [VERSION, c.packed e, sign mac (c.packed e)] := by
  refine @splitOn_join '.' _ (by simp) ?_
  intro p hp
  simp only [List.mem_cons, List.not_mem_nil, or_false] at hp
  rcases hp with rfl | rfl | rfl
  · decide
  · exact (coded_encodeText _).dot
  · exact (coded_sign mac _).dot

theorem compareDigest_self {s : String} (h : isAscii s = true) : compareDigest s s = .ok true := by
  unfold compareDigest
  rw [if_pos ⟨h, h⟩, decide_eq_true rfl]

@[simp] theorem raises_ok {α : Type} (a : α) : raises (.ok a : Except Raised α) = .ok a := rfl

theorem decode_token (mac : Hmac) {c : Issue} {e : ℤ} (h : e.natAbs < 10 ^ 12) :
    decode mac (join "." [VERSION, c.packed e, sign mac (c.packed e)]) =
      .ok (.obj (c.members e)) := by
  unfold decode
  rw [splitOn_token]
  dsimp only
  rw [if_neg (by simp), compareDigest_self (coded_sign mac _).isAscii]
  simp only [raises_ok, bind, Except.bind, if_true]
  rw [Issue.packed, unpack_encodeText (loads_payload h), raises_ok]

/-! ## A token that was issued -/

/-- The grant that a call of `issue` stands for. -/
def Issue.grant (c : Issue) (e : ℤ) : Grant :=
  ⟨.str c.userXid, .str c.mediaXid, .str c.purpose, seconds e,
    ((c.attempt.head?).map Prod.snd).getD .null⟩

/-- What `verify` makes of the members that `issue` wrote. -/
def Issue.read (c : Issue) (e : ℤ) (userXid mediaXid : String) (moment : Time) :
    Except Refusal Grant := do
  let sameUser ← raises (compareDigest c.userXid userXid)
  if !sameUser then throw wrongUser
  let sameMedia ← raises (compareDigest c.mediaXid mediaXid)
  if !sameMedia then throw wrongMedia
  let expires ← raises (fromTimestamp e)
  if expires < moment then throw expired
  return c.grant e

theorem readGrant_members (c : Issue) (e : ℤ) (userXid mediaXid : String) (moment : Time) :
    readGrant (.obj (c.members e)) userXid mediaXid moment = c.read e userXid mediaXid moment := by
  have hget : (dictOf (c.members e)).get? "u" = some (.str c.userXid) ∧
      (dictOf (c.members e)).get? "m" = some (.str c.mediaXid) ∧
      (dictOf (c.members e)).get? "p" = some (.str c.purpose) ∧
      (dictOf (c.members e)).get? "e" = some (.int e) ∧
      (dictOf (c.members e)).get? "a" = (c.attempt.head?).map Prod.snd := by
    unfold Issue.members dictOf
    obtain hnone | ⟨xid, hsome⟩ := attempt_cases c
    · rw [hnone]
      refine ⟨?_, ?_, ?_, ?_, ?_⟩ <;> simp [Dict.ofList, Dict.get?_put]
    · rw [hsome]
      refine ⟨?_, ?_, ?_, ?_, ?_⟩ <;> simp [Dict.ofList, Dict.get?_put]
  obtain ⟨hu, hm, hp, he, ha⟩ := hget
  unfold readGrant Issue.read Issue.grant
  simp only [dictMethod, asDict, subscript, getD, hu, hm, hp, he, ha, raises_ok, pyStr_str, pyInt,
    Option.getD_some, bind, Except.bind]
  by_cases hdate : isDate (seconds e) = true <;> simp only [fromTimestamp, hdate] <;> rfl

theorem members_inj {c c' : Issue} {e e' : ℤ} (h : c.members e = c'.members e') :
    c.attempt = c'.attempt ∧ e = e' ∧ c.mediaXid = c'.mediaXid ∧ c.purpose = c'.purpose ∧
      c.userXid = c'.userXid := by
  obtain ⟨hattempt, hrest⟩ := List.append_inj' h rfl
  simpa [hattempt] using hrest

/-! ## Verdicts -/

/-- These values come back and no others, and whatever else is forbidden. -/
def Judged {α : Type} (r : Except Refusal α) (values : α → Prop) : Prop :=
  (∀ a, r = .ok a ↔ values a) ∧ ∀ err, r = .error err → ∃ text code, err = .forbidden text code

theorem judged_forbidden {α : Type} {values : α → Prop} (h : ∀ a, ¬ values a)
    (text code : String) : Judged (.error (.forbidden text code)) values := by
  refine ⟨fun a => ⟨fun hok => ?_, fun ha => absurd ha (h a)⟩, fun err herr => ?_⟩
  · cases hok
  · cases herr
    exact ⟨text, code, rfl⟩

theorem judged_ok {α : Type} {values : α → Prop} {a : α} (h : ∀ b, values b ↔ b = a) :
    Judged (.ok a) values := by
  refine ⟨fun b => ?_, fun err herr => ?_⟩
  · rw [h b, Except.ok.injEq]
    exact eq_comm
  · cases herr

theorem not_judged_raised {α : Type} {values : α → Prop} (e : Raised) :
    ¬ Judged (.error (.raised e)) values := by
  intro h
  obtain ⟨text, code, herr⟩ := h.2 _ rfl
  cases herr

theorem compareDigest_of_ascii {a b : String} (h : isAscii a = true ∧ isAscii b = true) :
    compareDigest a b = .ok (decide (a = b)) := if_pos h

theorem compareDigest_of_not_ascii {a b : String} (h : ¬ (isAscii a = true ∧ isAscii b = true)) :
    compareDigest a b = .error .typeError := if_neg h

/-- What `verify` asks of the names and of the moment in a token. -/
def Issue.Readable (c : Issue) (e : ℤ) (userXid mediaXid : String) : Prop :=
  (isAscii c.userXid = true ∧ isAscii userXid = true) ∧ (c.userXid = userXid →
    (isAscii c.mediaXid = true ∧ isAscii mediaXid = true) ∧
      (c.mediaXid = mediaXid → isDate (seconds e) = true))

theorem judged_read {c : Issue} {e : ℤ} {userXid mediaXid : String} {now : Time}
    {values : Grant → Prop} (hvalues : ∀ g, values g ↔
      c.userXid = userXid ∧ c.mediaXid = mediaXid ∧ now ≤ seconds e ∧ g = c.grant e) :
    Judged (c.read e userXid mediaXid now) values ↔ c.Readable e userXid mediaXid := by
  unfold Issue.read Issue.Readable
  by_cases huser : isAscii c.userXid = true ∧ isAscii userXid = true
  swap
  · rw [compareDigest_of_not_ascii huser]
    exact iff_of_false (not_judged_raised _) (fun h => huser h.1)
  rw [compareDigest_of_ascii huser]
  by_cases hsame : c.userXid = userXid
  swap
  · rw [decide_eq_false hsame]
    refine iff_of_true (judged_forbidden ?_ _ _) ⟨huser, fun h => absurd h hsame⟩
    exact fun g hg => hsame ((hvalues g).1 hg).1
  rw [decide_eq_true hsame]
  by_cases hmedia : isAscii c.mediaXid = true ∧ isAscii mediaXid = true
  swap
  · rw [compareDigest_of_not_ascii hmedia]
    exact iff_of_false (not_judged_raised _) (fun h => hmedia (h.2 hsame).1)
  rw [compareDigest_of_ascii hmedia]
  by_cases hthat : c.mediaXid = mediaXid
  swap
  · rw [decide_eq_false hthat]
    refine iff_of_true (judged_forbidden ?_ _ _)
      ⟨huser, fun _ => ⟨hmedia, fun h => absurd h hthat⟩⟩
    exact fun g hg => hthat ((hvalues g).1 hg).2.1
  rw [decide_eq_true hthat]
  by_cases hdate : isDate (seconds e) = true
  swap
  · have hraise : fromTimestamp e = .error .valueError := if_neg hdate
    rw [hraise]
    exact iff_of_false (not_judged_raised _) (fun h => hdate ((h.2 hsame).2 hthat))
  have hread : fromTimestamp e = .ok (seconds e) := if_pos hdate
  rw [hread]
  refine iff_of_true ?_ ⟨huser, fun _ => ⟨hmedia, fun _ => hdate⟩⟩
  change Judged (if seconds e < now then _ else _) values
  split
  · next hlate =>
    exact judged_forbidden (fun g hg => absurd ((hvalues g).1 hg).2.2.1 (not_le.2 hlate)) _ _
  · next hlive =>
    refine judged_ok (fun g => (hvalues g).trans ?_)
    simp only [hsame, hthat, not_lt.1 hlive, true_and]

/-! ## Whoever does not hold the key -/

/-- The calls that the holder of the key has made. -/
structure History where
  issued : List Issue
  signed : List SignObject

/-- A text whose MACs are all of messages that were signed. -/
structure Presentable (mac : Hmac) (hist : History) (s : String) : Prop where
  token : ∀ m, (sign mac m).toList <:+: s.toList →
    ∃ c ∈ hist.issued, ∃ e, c.expires = some e ∧ m = c.packed e
  object : ∀ m, (sign mac m).toList.take 32 <:+: s.toList →
    (∃ c ∈ hist.issued, ∃ e, c.expires = some e ∧ m = c.packed e) ∨
      ∃ c ∈ hist.signed, ∃ e, c.expires = some e ∧ m = message c.key e

variable {mac : Hmac} {hist : History} {s : String}

def TokenGrants (mac : Hmac) (hist : History) (s userXid mediaXid : String) (now : Time)
    (g : Grant) : Prop :=
  ∃ c ∈ hist.issued, ∃ e, issue mac c = some s ∧ c.expires = some e ∧ c.userXid = userXid ∧
    c.mediaXid = mediaXid ∧ now ≤ seconds e ∧ g = c.grant e

/-- A token that is read without raising. -/
structure TokenReads (mac : Hmac) (hist : History) (s userXid mediaXid : String) : Prop where
  signature : ∀ packed signature, splitOn '.' s = [VERSION, packed, signature] →
    isAscii signature = true
  issued : ∀ c ∈ hist.issued, ∀ e, issue mac c = some s → c.expires = some e →
    c.Readable e userXid mediaXid

theorem issue_of_expires {c : Issue} {e : ℤ} (h : c.expires = some e) :
    issue mac c = some (join "." [VERSION, c.packed e, sign mac (c.packed e)]) := by
  unfold issue
  rw [h]
  rfl

theorem decode_issued {c : Issue} {e : ℤ} (he : c.expires = some e) (h : issue mac c = some s) :
    decode mac s = .ok (.obj (c.members e)) := by
  rw [issue_of_expires he] at h
  rw [← Option.some.inj h]
  exact decode_token mac (expiry_bound he)

theorem decode_cases (hs : Presentable mac hist s) :
    (∃ c ∈ hist.issued, ∃ e, c.expires = some e ∧ issue mac c = some s) ∨
      (∃ text code, decode mac s = .error (.forbidden text code) ∧
        ∀ packed signature, splitOn '.' s = [VERSION, packed, signature] →
          isAscii signature = true) ∨
      ∃ packed signature, splitOn '.' s = [VERSION, packed, signature] ∧
        isAscii signature = false ∧ decode mac s = .error (.raised .typeError) := by
  by_cases hsplit : ∃ packed signature, splitOn '.' s = [VERSION, packed, signature]
  · obtain ⟨packed, signature, hsplit⟩ := hsplit
    by_cases hascii : isAscii signature = true
    · by_cases hmac : sign mac packed = signature
      · have htext := eq_join_of_splitOn hsplit
        have hinfix : (sign mac packed).toList <:+: s.toList := by
          rw [htext, toList_join_triple, hmac]
          exact ⟨VERSION.toList ++ '.' :: (packed.toList ++ ['.']), [], by simp⟩
        obtain ⟨c, hc, e, he, hpacked⟩ := hs.token packed hinfix
        refine .inl ⟨c, hc, e, he, ?_⟩
        rw [issue_of_expires he, ← hpacked, hmac, htext]
      · have hrefuse : decode mac s = .error badSignature := by
          unfold decode
          rw [hsplit]
          dsimp only
          rw [if_neg (by simp), compareDigest_of_ascii ⟨(coded_sign mac _).isAscii, hascii⟩,
            decide_eq_false hmac]
          rfl
        refine .inr (.inl ⟨_, _, hrefuse, fun p q h => ?_⟩)
        rw [hsplit] at h
        cases h
        exact hascii
    · have hraise : decode mac s = .error (.raised .typeError) := by
        unfold decode
        rw [hsplit]
        dsimp only
        rw [if_neg (by simp), compareDigest_of_not_ascii (fun h => hascii h.2)]
        rfl
      exact .inr (.inr ⟨packed, signature, hsplit, Bool.eq_false_iff.2 hascii, hraise⟩)
  · have hnone : ∀ packed signature, splitOn '.' s = [VERSION, packed, signature] →
        isAscii signature = true := fun p q h => absurd ⟨p, q, h⟩ hsplit
    unfold decode
    split
    · next version packed signature heq =>
      have hversion : version ≠ VERSION := fun h => hsplit ⟨packed, signature, h ▸ heq⟩
      exact .inr (.inl ⟨_, _, if_pos hversion, hnone⟩)
    · exact .inr (.inl ⟨_, _, rfl, hnone⟩)

theorem judged_token (hs : Presentable mac hist s) (userXid mediaXid : String) (now : Time) :
    Judged (verify mac s userXid mediaXid now) (TokenGrants mac hist s userXid mediaXid now) ↔
      TokenReads mac hist s userXid mediaXid := by
  -- what is issued decodes, so what does not decode was not issued
  have hnot : ∀ {err}, decode mac s = .error err → ∀ c ∈ hist.issued, ∀ e,
      issue mac c = some s → c.expires ≠ some e := by
    intro err herr c _ e hc he
    rw [decode_issued he hc] at herr
    cases herr
  unfold verify
  rcases decode_cases hs with ⟨c, hc, e, he, hissue⟩ | ⟨text, code, hdecode, hsignature⟩ |
    ⟨packed, signature, hsplit, hascii, hdecode⟩
  · have hdecode := decode_issued he hissue
    have hsame : ∀ c' ∈ hist.issued, ∀ e', issue mac c' = some s → c'.expires = some e' →
        c'.attempt = c.attempt ∧ e' = e ∧ c'.mediaXid = c.mediaXid ∧ c'.purpose = c.purpose ∧
          c'.userXid = c.userXid := by
      intro c' _ e' hissue' he'
      have hdecode' := decode_issued he' hissue'
      rw [hdecode] at hdecode'
      exact members_inj (Json.obj.inj (Except.ok.inj hdecode')).symm
    have hvalues : ∀ g, TokenGrants mac hist s userXid mediaXid now g ↔
        c.userXid = userXid ∧ c.mediaXid = mediaXid ∧ now ≤ seconds e ∧ g = c.grant e := by
      intro g
      constructor
      · rintro ⟨c', hc', e', hissue', he', huser, hmedia, hnow, rfl⟩
        obtain ⟨hattempt, rfl, hm, hp, hu⟩ := hsame c' hc' e' hissue' he'
        refine ⟨hu ▸ huser, hm ▸ hmedia, hnow, ?_⟩
        unfold Issue.grant
        rw [hattempt, hm, hp, hu]
      · rintro ⟨huser, hmedia, hnow, hg⟩
        exact ⟨c, hc, e, hissue, he, huser, hmedia, hnow, hg⟩
    rw [hdecode]
    change Judged (readGrant (.obj (c.members e)) userXid mediaXid now) _ ↔ _
    rw [readGrant_members, judged_read hvalues]
    constructor
    · intro hread
      refine ⟨fun p q hsplit => ?_, fun c' hc' e' hissue' he' => ?_⟩
      · have htoken := @issue_of_expires mac c e he
        rw [hissue] at htoken
        rw [Option.some.inj htoken, splitOn_token] at hsplit
        simp only [List.cons.injEq, true_and, and_true] at hsplit
        rw [← hsplit.2]
        exact (coded_sign mac _).isAscii
      · obtain ⟨_, rfl, hm, _, hu⟩ := hsame c' hc' e' hissue' he'
        unfold Issue.Readable
        rw [hm, hu]
        exact hread
    · exact fun h => h.issued c hc e hissue he
  · rw [hdecode]
    refine iff_of_true (judged_forbidden ?_ _ _) ⟨hsignature, ?_⟩
    · rintro g ⟨c, hc, e, hissue, he, _⟩
      exact hnot hdecode c hc e hissue he
    · exact fun c hc e hissue he => absurd he (hnot hdecode c hc e hissue)
  · rw [hdecode]
    refine iff_of_false (not_judged_raised _) (fun h => ?_)
    rw [h.signature packed signature hsplit] at hascii
    cases hascii

/-! ## Object signatures -/

theorem toList_message (key : String) (e : ℤ) :
    (message key e).toList = key.toList ++ ':' :: (toString e).toList := by
  simp [message, join, List.intercalate]

theorem message_inj {key key' : String} {e e' : ℤ} (h : message key e = message key' e') :
    key = key' ∧ e = e' := by
  have hcolon : ∀ n : ℤ, ':' ∉ (toString n).toList.reverse := by
    intro n hn
    have hc := mem_toString (List.mem_reverse.1 hn)
    revert hc
    decide
  have hlist := congrArg String.toList h
  rw [toList_message, toList_message] at hlist
  have hreverse := congrArg List.reverse hlist
  simp only [List.reverse_append, List.reverse_cons, List.append_assoc,
    List.singleton_append] at hreverse
  -- the last colon is the one before the number
  have hsplit := congrArg (splitOnChar ':' []) hreverse
  rw [splitOnChar_append (hcolon e), splitOnChar_append (hcolon e')] at hsplit
  have hdigits : (toString e).toList = (toString e').toList :=
    List.reverse_injective (List.cons.inj hsplit).1
  rw [hdigits] at hlist
  have htext := String.toList_inj.1 hdigits
  rw [Int.toString_eq_repr, Int.toString_eq_repr] at htext
  exact ⟨String.toList_inj.1 (List.append_cancel_right hlist), Int.repr_injective htext⟩

def ObjectGrants (mac : Hmac) (hist : History) (s key : String) (now : Time) (_ : Unit) : Prop :=
  ∃ c ∈ hist.signed, ∃ e, signObject mac c = some s ∧ c.expires = some e ∧ c.key = key ∧
    now ≤ seconds e

/-- An object signature that is read without raising, and as it was written. -/
structure ObjectReads (mac : Hmac) (hist : History) (s key : String) (now : Time) : Prop where
  signature : ∀ raw text e, splitOn '.' s = [raw, text] →
    (intOfText raw : Except Raised ℤ) = .ok e → isAscii text = true
  signed : ∀ c ∈ hist.signed, ∀ raw e, c.key = key → c.expires = some e →
    splitOn '.' s = [raw, objectMac mac key e] → (intOfText raw : Except Raised ℤ) = .ok e →
    isDate (seconds e) = true ∧ (raw = toString e ∨ seconds e < now)

theorem splitOn_objectText (mac : Hmac) (key : String) (e : ℤ) :
    splitOn '.' (objectText mac key e) = [toString e, objectMac mac key e] := by
  refine @splitOn_join '.' _ (by simp) ?_
  intro p hp
  simp only [List.mem_cons, List.not_mem_nil, or_false] at hp
  rcases hp with rfl | rfl
  · intro hdot
    have hc := mem_toString hdot
    revert hc
    decide
  · exact (coded_objectMac mac key e).dot

theorem splitObject_eq_some {e : ℤ} {text : String} (h : splitObject s = some (e, text)) :
    ∃ raw, splitOn '.' s = [raw, text] ∧ (intOfText raw : Except Raised ℤ) = .ok e := by
  unfold splitObject at h
  split at h
  · next raw _ hsplit =>
    split at h
    · next n hint =>
      cases h
      exact ⟨raw, hsplit, hint⟩
    · cases h
  · cases h

theorem splitObject_of_splitOn {raw text : String} {e : ℤ} (h : splitOn '.' s = [raw, text])
    (he : (intOfText raw : Except Raised ℤ) = .ok e) : splitObject s = some (e, text) := by
  unfold splitObject
  rw [h]
  dsimp only
  rw [he]

theorem splitOn_of_objectGrants {key : String} {now : Time} {u : Unit}
    (h : ObjectGrants mac hist s key now u) : ∃ e, s = objectText mac key e ∧
      splitObject s = some (e, objectMac mac key e) ∧ now ≤ seconds e ∧
      ∃ c ∈ hist.signed, c.key = key ∧ c.expires = some e := by
  obtain ⟨c, hc, e, hsign, he, rfl, hnow⟩ := h
  unfold signObject at hsign
  rw [he] at hsign
  have htext : s = objectText mac c.key e := (Option.some.inj hsign).symm
  have hsplit := splitOn_objectText mac c.key e
  rw [← htext] at hsplit
  exact ⟨e, htext, splitObject_of_splitOn hsplit (intOfText_toString_int (expiry_bound he)), hnow,
    c, hc, rfl, he⟩

theorem signed_of_objectMac (hs : Presentable mac hist s) {raw key : String} {e : ℤ}
    (h : splitOn '.' s = [raw, objectMac mac key e]) :
    ∃ c ∈ hist.signed, c.key = key ∧ c.expires = some e := by
  have hinfix : (sign mac (message key e)).toList.take 32 <:+: s.toList := by
    rw [eq_join_of_splitOn h, toList_join_pair, objectMac, String.toList_ofList]
    exact ⟨raw.toList ++ ['.'], [], by simp⟩
  rcases hs.object _ hinfix with ⟨c, _, e', _, hm⟩ | ⟨c, hc, e', he', hm⟩
  · -- the text under a token has no colon
    have hcolon : ':' ∈ (message key e).toList := by
      rw [toList_message]
      simp
    rw [hm] at hcolon
    exact absurd hcolon (coded_encodeText _).colon
  · obtain ⟨rfl, rfl⟩ := message_inj hm
    exact ⟨c, hc, rfl, he'⟩

theorem judged_object (hs : Presentable mac hist s) (key : String) (now : Time) :
    Judged (verifyObject mac key s now) (ObjectGrants mac hist s key now) ↔
      ObjectReads mac hist s key now := by
  unfold verifyObject
  cases hsplit : splitObject s with
  | none =>
    refine iff_of_true (judged_forbidden ?_ _ _) ⟨?_, ?_⟩
    · rintro u hu
      obtain ⟨e, _, hsome, _⟩ := splitOn_of_objectGrants hu
      rw [hsplit] at hsome
      cases hsome
    · intro raw text e h he
      rw [splitObject_of_splitOn h he] at hsplit
      cases hsplit
    · intro c _ raw e _ _ h he
      rw [splitObject_of_splitOn h he] at hsplit
      cases hsplit
  | some p =>
    obtain ⟨e, text⟩ := p
    obtain ⟨raw, hparts, hint⟩ := splitObject_eq_some hsplit
    have hgrants : ∀ u, ObjectGrants mac hist s key now u ↔
        text = objectMac mac key e ∧ raw = toString e ∧ now ≤ seconds e := by
      intro u
      constructor
      · intro hu
        obtain ⟨e', htext, hsome, hnow, _⟩ := splitOn_of_objectGrants hu
        rw [hsplit] at hsome
        cases hsome
        rw [htext, splitOn_objectText] at hparts
        exact ⟨rfl, (List.cons.inj hparts).1.symm, hnow⟩
      · rintro ⟨rfl, rfl, hnow⟩
        obtain ⟨c, hc, rfl, he⟩ := signed_of_objectMac hs hparts
        refine ⟨c, hc, e, ?_, he, rfl, hnow⟩
        unfold signObject
        rw [he, eq_join_of_splitOn hparts]
        rfl
    dsimp only
    by_cases hascii : isAscii text = true
    swap
    · rw [compareDigest_of_not_ascii (fun h => hascii h.2)]
      exact iff_of_false (not_judged_raised _)
        (fun h => hascii (h.signature raw text e hparts hint))
    rw [compareDigest_of_ascii ⟨(coded_objectMac mac key e).isAscii, hascii⟩]
    have hsignature : ∀ raw' text' e', splitOn '.' s = [raw', text'] →
        (intOfText raw' : Except Raised ℤ) = .ok e' → isAscii text' = true := by
      intro raw' text' e' h _
      rw [hparts] at h
      cases h
      exact hascii
    by_cases hmac : objectMac mac key e = text
    swap
    · rw [decide_eq_false hmac]
      refine iff_of_true (judged_forbidden ?_ _ _) ⟨hsignature, ?_⟩
      · exact fun u hu => hmac ((hgrants u).1 hu).1.symm
      · intro c _ raw' e' _ _ h he
        have hsome := splitObject_of_splitOn h he
        rw [hsplit] at hsome
        cases hsome
        exact absurd rfl hmac
    rw [decide_eq_true hmac]
    subst hmac
    obtain ⟨c, hc, hkey, he⟩ := signed_of_objectMac hs hparts
    by_cases hdate : isDate (seconds e) = true
    swap
    · have hraise : fromTimestamp e = .error .valueError := if_neg hdate
      rw [hraise]
      exact iff_of_false (not_judged_raised _)
        (fun h => hdate (h.signed c hc raw e hkey he hparts hint).1)
    have hread : fromTimestamp e = .ok (seconds e) := if_pos hdate
    have hsigned : raw = toString e ∨ seconds e < now → ObjectReads mac hist s key now := by
      refine fun h => ⟨hsignature, fun c' _ raw' e' _ _ h' he' => ?_⟩
      have hsome := splitObject_of_splitOn h' he'
      rw [hsplit] at hsome
      cases hsome
      rw [hparts] at h'
      cases h'
      exact ⟨hdate, h⟩
    rw [hread]
    change Judged (if seconds e < now then throw expiredObject else pure ()) _ ↔ _
    by_cases hlate : seconds e < now
    · rw [if_pos hlate]
      refine iff_of_true (judged_forbidden ?_ _ _) (hsigned (.inr hlate))
      exact fun u hu => absurd ((hgrants u).1 hu).2.2 (not_le.2 hlate)
    rw [if_neg hlate]
    by_cases hraw : raw = toString e
    · refine iff_of_true (judged_ok (fun u => ?_)) (hsigned (.inl hraw))
      exact iff_of_true ((hgrants u).2 ⟨rfl, hraw, not_lt.1 hlate⟩) rfl
    · refine iff_of_false (fun h => ?_) (fun h => ?_)
      · exact hraw ((hgrants ()).1 ((h.1 ()).1 rfl)).2.1
      · exact (h.signed c hc raw e hkey he hparts hint).2.elim hraw hlate

/-! ## Both together -/

theorem parts_of_verify {userXid mediaXid : String} {now : Time}
    (h : Returns (verify mac s userXid mediaXid now)) : (splitOn '.' s).length = 3 := by
  obtain ⟨payload, hdecode, _⟩ := returns_bind.1 h
  unfold decode at hdecode
  split at hdecode
  · next heq =>
    rw [heq]
    rfl
  · cases hdecode

theorem parts_of_verifyObject {key : String} {now : Time}
    (h : Returns (verifyObject mac key s now)) : (splitOn '.' s).length = 2 := by
  unfold verifyObject at h
  cases hsplit : splitObject s with
  | none =>
    rw [hsplit] at h
    exact absurd h (returns_error _)
  | some p =>
    obtain ⟨raw, hparts, _⟩ := splitObject_eq_some hsplit
    rw [hparts]
    rfl

/-- What a grant is worth: a text that whoever does not hold the key can present is judged by
both functions as it should be exactly where they read it, and none is good for both. -/
theorem grants_sound (hs : Presentable mac hist s) :
    (∀ userXid mediaXid now, Judged (verify mac s userXid mediaXid now)
      (TokenGrants mac hist s userXid mediaXid now) ↔ TokenReads mac hist s userXid mediaXid) ∧
    (∀ key now, Judged (verifyObject mac key s now) (ObjectGrants mac hist s key now) ↔
      ObjectReads mac hist s key now) ∧
    ∀ userXid mediaXid now key moment, Returns (verify mac s userXid mediaXid now) →
      ¬ Returns (verifyObject mac key s moment) := by
  refine ⟨judged_token hs, judged_object hs, ?_⟩
  intro userXid mediaXid now key moment htoken hobject
  have hthree := parts_of_verify htoken
  rw [parts_of_verifyObject hobject] at hthree
  cases hthree

def samplePacked : String := "eyJlIjoxNzgyODk0NzIwLCJtIjoibTEiLCJwIjoiZXhhbSIsInUiOiJ1MSJ9"

def sampleToken : String :=
  "v1.eyJlIjoxNzgyODk0NzIwLCJtIjoibTEiLCJwIjoiZXhhbSIsInUiOiJ1MSJ9." ++
    "E-BIKQIvpxhIb-t7LAMjrnK1bgQtmCFmWWUEt84LVsA"

def sampleMac : Hmac where
  digest message :=
    if message = utf8 samplePacked then
      [19, 224, 72, 41, 2, 47, 167, 24, 72, 111, 235, 123, 44, 3, 35, 174, 114, 181,
        110, 4, 45, 152, 33, 102, 89, 101, 4, 183, 206, 11, 86, 192]
    else List.replicate 32 0
  length message := by split <;> rfl

def sampleIssue : Issue := ⟨"u1", "m1", "exam", none, 120, 1782894600000000⟩

theorem sign_zeros {mac : Hmac} {m : String}
    (h : mac.digest (utf8 m) = List.replicate 32 0) :
    (sign mac m).toList = List.replicate 43 'A' := by
  unfold sign
  rw [String.toList_ofList, h]
  decide +kernel

theorem presentable_sample : Presentable sampleMac ⟨[sampleIssue], []⟩ sampleToken := by
  have hexpires : sampleIssue.expires = some 1782894720 := by decide +kernel
  have hpacked : sampleIssue.packed 1782894720 = samplePacked := by decide +kernel
  have hall : ∀ m, (sign sampleMac m).toList.take 32 <:+: sampleToken.toList →
      ∃ c ∈ [sampleIssue], ∃ e, c.expires = some e ∧ m = c.packed e := by
    intro m hinfix
    by_cases hm : m = samplePacked
    · exact ⟨_, List.mem_cons_self, _, hexpires, hm.trans hpacked.symm⟩
    · have hne : utf8 m ≠ utf8 samplePacked := by
        intro heq
        have htext := congrArg ofUtf8 heq
        rw [ofUtf8_utf8, ofUtf8_utf8] at htext
        exact hm (Option.some.inj htext)
      rw [sign_zeros (if_neg hne)] at hinfix
      exact absurd hinfix (by decide +kernel)
  exact ⟨fun m h => hall m ((List.take_prefix 32 _).isInfix.trans h), fun m h => .inl (hall m h)⟩

theorem grants_sound_issued : verify sampleMac sampleToken "u1" "m1" 1782894600000000 =
    .ok ⟨.str "u1", .str "m1", .str "exam", 1782894720000000, .null⟩ := by
  have hexpires : sampleIssue.expires = some 1782894720 := by decide +kernel
  have hissue : issue sampleMac sampleIssue = some sampleToken := by decide +kernel
  have hparts : splitOn '.' sampleToken = [VERSION, samplePacked,
      "E-BIKQIvpxhIb-t7LAMjrnK1bgQtmCFmWWUEt84LVsA"] := by decide +kernel
  have hreads : TokenReads sampleMac ⟨[sampleIssue], []⟩ sampleToken "u1" "m1" := by
    refine ⟨fun packed signature h => ?_, fun c hc e _ he => ?_⟩
    · rw [hparts] at h
      simp only [List.cons.injEq, true_and, and_true] at h
      rw [← h.2]
      decide +kernel
    · rw [List.mem_singleton.1 hc] at he ⊢
      rw [hexpires] at he
      cases he
      unfold Issue.Readable
      decide +kernel
  have hjudged := ((grants_sound presentable_sample).1 "u1" "m1" 1782894600000000).2 hreads
  exact (hjudged.1 _).2 ⟨sampleIssue, List.mem_cons_self, _, hissue, hexpires, rfl, rfl,
    by decide, rfl⟩

/-- A signature that is not ASCII raises in the comparison, whoever presents it. -/
theorem signature_raises : ¬ ∀ (mac : Hmac) (hist : History) (s : String),
    Presentable mac hist s →
    (∀ userXid mediaXid now, Judged (verify mac s userXid mediaXid now)
      (TokenGrants mac hist s userXid mediaXid now)) ∧
    (∀ key now, Judged (verifyObject mac key s now) (ObjectGrants mac hist s key now)) ∧
    ∀ userXid mediaXid now key moment, Returns (verify mac s userXid mediaXid now) →
      ¬ Returns (verifyObject mac key s moment) := by
  intro h
  have hs : Presentable ⟨fun _ => List.replicate 32 0, fun _ => rfl⟩ ⟨[], []⟩ "v1.x.é" := by
    refine ⟨fun m hm => ?_, fun m hm => ?_⟩
    · rw [sign_zeros rfl] at hm
      exact absurd hm (by decide +kernel)
    · rw [sign_zeros rfl] at hm
      exact absurd hm (by decide +kernel)
  have hraise : verify ⟨fun _ => List.replicate 32 0, fun _ => rfl⟩ "v1.x.é" "u1" "m1" 0 =
      .error (.raised .typeError) := by decide +kernel
  have hjudged := (h _ _ _ hs).1 "u1" "m1" 0
  rw [hraise] at hjudged
  exact not_judged_raised _ hjudged

end IeltsHub.MediaGrants
