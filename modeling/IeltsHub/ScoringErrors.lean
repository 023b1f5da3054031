import IeltsHub.ExamScoringInputs

set_option autoImplicit false

/-!
# What scoring can raise

A `Conflict` is the application's own refusal, and callers catch it. Resolving the inputs of an
attempt, scoring them and storing the run raise built-in exceptions, the registry's error or the
database's, and never a conflict: one that is caught never hides an unfinished scoring.
-/
namespace IeltsHub.ScoringErrors
open PyExc PyText PyValue PyDict PyTime PlatformErrors QtypesSchemas QtypesLexicon
  QtypesNormalizers QtypesPrimitives QtypesRegistry ContentModels ExamScoring ContentComposition
  ExamModels ExamScoringInputs

def Quiet {α : Type} (x : Except Raised α) : Prop := Raises (fun e => e.isConflict = false) x

variable {α : Type}

theorem quiet_error {e : Raised} (h : e.isConflict = false) : Quiet (.error e : Except Raised α) :=
  raises_error h

/-! ## Values -/

theorem quiet_dictMethod (v : Json) : Quiet (dictMethod v) := by
  unfold dictMethod
  split
  · exact raises_ok _
  · exact quiet_error rfl

theorem quiet_iter (v : Json) : Quiet (iter v) := by
  unfold iter
  split
  · exact raises_ok _
  · exact quiet_error rfl

theorem quiet_subscript (v : Json) (key : String) : Quiet (subscript v key) := by
  unfold subscript
  split
  · split
    · exact raises_ok _
    · exact quiet_error rfl
  · exact quiet_error rfl

theorem quiet_intOfText (s : String) : Quiet (intOfText s) := by
  unfold intOfText
  simp only
  split
  · exact quiet_error rfl
  · split
    · exact raises_ok _
    · exact quiet_error rfl

theorem quiet_textOfNat (n : ℕ) : Quiet (textOfNat n) := by
  unfold textOfNat
  split
  · exact raises_ok _
  · exact quiet_error rfl

theorem quiet_pyInt (v : Json) : Quiet (pyInt v) := by
  unfold pyInt
  split
  · exact raises_ok _
  · exact raises_ok _
  · exact raises_ok _
  · exact quiet_intOfText _
  · exact quiet_error rfl

theorem quiet_decimal (v : Json) : Quiet (decimal v) := by
  unfold decimal
  split
  · exact raises_ok _
  · exact raises_ok _
  · split
    · exact raises_ok _
    · exact quiet_error rfl
  · exact quiet_error rfl

/-! ## Schemas and normalizers -/

theorem quiet_optionOf (o : Json) : Quiet (optionOf o) :=
  raises_bind (quiet_subscript o "id") (fun _ =>
    raises_bind (quiet_dictMethod o) (fun _ => raises_ok _))

theorem quiet_wordLimit (raw : Json) : Quiet (WordLimit.fromDict raw) := by
  unfold WordLimit.fromDict
  split
  · exact raises_bind (quiet_subscript raw "max_words") (fun v =>
      raises_bind (quiet_pyInt v) (fun _ =>
        raises_bind (quiet_dictMethod raw) (fun _ => raises_ok _)))
  · exact raises_ok none

theorem quiet_groupRules (raw : Obj) : Quiet (GroupRules.fromDict raw) :=
  raises_bind (quiet_iter _) (fun _ => raises_bind (raises_mapM quiet_optionOf) (fun _ =>
    raises_bind (quiet_wordLimit _) (fun _ => raises_ok _)))

theorem quiet_digitOf (lex : Lexicon) (token : String) : Quiet (digitOf lex token) := by
  unfold digitOf
  simp only
  split
  · exact raises_map (quiet_intOfText _)
  · exact raises_ok none

theorem quiet_peek (lex : Lexicon) (ts : List String) : Quiet (peek lex ts) := by
  cases ts with
  | nil => exact raises_ok none
  | cons t ts => exact quiet_digitOf lex t

theorem quiet_parseNumber (lex : Lexicon) (frames : ℕ) (ts : List String) :
    Quiet (parseNumber lex frames ts) := by
  induction frames generalizing ts with
  | zero => exact quiet_error rfl
  | succ frames ih =>
    cases ts with
    | nil => exact quiet_error rfl
    | cons t ts =>
      unfold parseNumber
      refine raises_bind (quiet_digitOf lex t) (fun o => ?_)
      split
      · exact raises_ok _
      · split
        · refine raises_bind (quiet_peek lex _) (fun r => ?_)
          split
          · split
            · refine raises_bind (ih _) (fun p => ?_)
              split
              split
              · exact raises_ok _
              · exact raises_ok _
            · exact raises_ok _
          · exact raises_ok _
        · split
          · refine raises_bind (quiet_peek lex ts) (fun r => ?_)
            split
            · split
              · exact raises_ok _
              · exact raises_ok _
            · exact raises_ok _
          · exact raises_ok _

theorem quiet_numberTokens (lex : Lexicon) (frames skip : ℕ) (ts : List String) :
    Quiet (numberTokens lex frames skip ts) := by
  induction ts generalizing skip with
  | nil => cases skip <;> exact raises_ok []
  | cons t ts ih =>
    cases skip with
    | succ skip => exact ih skip
    | zero =>
      unfold numberTokens
      refine raises_bind (quiet_parseNumber lex frames (t :: ts)) (fun p => ?_)
      split
      split
      · exact raises_bind (ih 0) (fun _ => raises_ok _)
      · exact raises_bind (quiet_textOfNat _) (fun _ => raises_bind (ih _) (fun _ => raises_ok _))

theorem quiet_implementation (lex : Lexicon) (frames : ℕ) (n : Normalizer) (v : String) :
    Quiet (implementation lex frames n v) := by
  cases n with
  | numberWord => exact raises_map (quiet_numberTokens lex frames 0 _)
  | _ => exact raises_ok _

theorem quiet_run (p : Pipeline) (value : String) : Quiet (p.run value) := by
  refine raises_foldlM (fun done n => ?_)
  refine raises_bind (quiet_implementation p.lexicon p.frames n done.value) (fun after => ?_)
  split
  · exact raises_ok _
  · exact raises_ok _

theorem quiet_ofNames (names : List Json) (lex : Lexicon) (frames : ℕ) :
    Quiet (Pipeline.ofNames names lex frames) := by
  unfold Pipeline.ofNames
  split
  · exact raises_ok _
  · exact quiet_error rfl

theorem quiet_override (p : Pipeline) (names : Json) : Quiet (p.override names) := by
  unfold Pipeline.override
  split
  · exact raises_bind (quiet_iter names) (fun es => quiet_ofNames es _ _)
  · exact raises_ok p

/-! ## Primitives -/

theorem quiet_keySlots (key : Obj) : Quiet (keySlots key) := raises_map (quiet_dictMethod _)

theorem quiet_submittedText (submitted : Json) (slotKey : String) :
    Quiet (submittedText submitted slotKey) :=
  raises_map (quiet_dictMethod submitted)

theorem quiet_acceptedOf (spec : Obj) : Quiet (acceptedOf spec) := raises_map (quiet_iter _)

theorem quiet_optionsOf (listed : Json) : Quiet (optionsOf listed) :=
  raises_bind (quiet_iter listed) (fun _ => raises_mapM quiet_optionOf)

theorem quiet_resolveOptions (ctx : ScoringContext) : Quiet (resolveOptions ctx) := by
  unfold resolveOptions
  simp only
  split
  · exact quiet_optionsOf _
  · split
    · exact raises_ok _
    · split
      · exact quiet_optionsOf _
      · split
        · exact raises_ok _
        · exact quiet_error rfl

theorem quiet_choicePerSlot (response : Json) (key : Obj) (ctx : ScoringContext) :
    Quiet (choicePerSlot response key ctx) := by
  refine raises_bind (quiet_resolveOptions ctx) (fun options => ?_)
  refine raises_bind (quiet_decimal _) (fun perSlot => ?_)
  refine raises_bind (quiet_keySlots key) (fun slots => ?_)
  refine raises_bind (raises_mapM (fun slot => ?_)) (fun scores => raises_ok _)
  exact raises_bind (quiet_submittedText _ _) (fun _ => raises_bind (quiet_dictMethod _)
    (fun spec => raises_bind (quiet_acceptedOf spec) (fun _ => raises_ok _)))

theorem quiet_readTextSlot (ctx : ScoringContext) (submitted : Json) (slot : String × Json) :
    Quiet (readTextSlot ctx submitted slot) := by
  refine raises_bind (quiet_submittedText submitted slot.1) (fun raw => ?_)
  refine raises_bind (quiet_dictMethod slot.2) (fun spec => ?_)
  refine raises_bind (quiet_acceptedOf spec) (fun accepted => ?_)
  refine raises_bind (raises_map (quiet_override _ _)) (fun pipeline => ?_)
  exact raises_bind (raises_map (quiet_wordLimit _)) (fun limit => raises_ok _)

theorem quiet_gradeText (spec : ScoringSpec) (perSlot : ℚ) (slotKey : String) (t : TextSlot) :
    Quiet (gradeText spec perSlot slotKey t) := by
  unfold gradeText
  simp only
  split
  · exact raises_ok _
  · split
    · exact raises_ok _
    · refine raises_bind (quiet_run t.pipeline _) (fun got => ?_)
      refine raises_bind (raises_mapM (quiet_run t.pipeline)) (fun wants => ?_)
      split
      · exact raises_ok _
      · exact raises_ok _

theorem quiet_textPerSlot (response : Json) (key : Obj) (ctx : ScoringContext) :
    Quiet (textPerSlot response key ctx) := by
  refine raises_bind (quiet_decimal _) (fun perSlot => ?_)
  refine raises_bind (quiet_keySlots key) (fun slots => ?_)
  refine raises_bind (raises_mapM (fun slot => ?_)) (fun scores => raises_ok _)
  exact raises_bind (quiet_readTextSlot ctx _ slot) (fun t => quiet_gradeText _ _ _ t)

theorem quiet_selection (response : Json) : Quiet (selection response) := by
  unfold selection
  split
  · exact raises_ok []
  · split
    · exact raises_map (quiet_iter _)
    · exact raises_map (quiet_dictMethod _)

theorem quiet_selectCount (spec : ScoringSpec) (correct : List String) :
    Quiet (selectCount spec correct) := by
  unfold selectCount
  simp only
  split
  · exact raises_ok _
  · exact quiet_pyInt _

theorem quiet_setSelection (response : Json) (key : Obj) (ctx : ScoringContext) :
    Quiet (setSelection response key ctx) := by
  refine raises_bind (raises_map (quiet_iter _)) (fun correct => ?_)
  refine raises_bind (quiet_selectCount ctx.spec correct) (fun expected => ?_)
  refine raises_bind (quiet_decimal _) (fun perCorrect => ?_)
  exact raises_bind (quiet_selection response) (fun _ => raises_ok _)

theorem quiet_primitives (p : Primitive) (response : Json) (key : Obj) (ctx : ScoringContext) :
    Quiet (primitives p response key ctx) := by
  cases p with
  | choicePerSlot => exact quiet_choicePerSlot response key ctx
  | textPerSlot => exact quiet_textPerSlot response key ctx
  | setSelection => exact quiet_setSelection response key ctx

/-! ## Scoring an attempt -/

theorem quiet_get (r : Registry) (key : String) (version : ℤ) : Quiet (r.get key version) := by
  unfold Registry.get
  split
  · exact raises_ok _
  · exact quiet_error rfl

theorem quiet_context (s : Scorer) (d : QuestionTypeDef) (req : ScoreRequest) :
    Quiet (s.context d req) := by
  refine raises_bind ?_ (fun pipeline => raises_bind ?_ (fun group => raises_ok _))
  · unfold Scorer.pipeline
    simp only
    split
    · exact raises_bind (quiet_iter _) (fun es => quiet_ofNames es _ _)
    · exact quiet_ofNames _ _ _
  · unfold Scorer.groupRules
    simp only
    split
    · exact raises_map (quiet_wordLimit _)
    · exact raises_ok _

theorem quiet_scoreItem (s : Scorer) (req : ScoreRequest) : Quiet (s.scoreItem req) :=
  raises_bind (quiet_get s.registry _ _) (fun d => raises_bind (quiet_context s d req)
    (fun ctx => quiet_primitives _ _ _ ctx))

theorem quiet_scoreAttempt (attempt : AttemptInput) (keys : Dict String KeyVersion)
    (s : Scorer) (bandMap : Option BandMap) (reason : String) :
    Quiet (scoreAttempt attempt keys s bandMap reason) := by
  refine raises_map (raises_foldlM (fun t item => ?_))
  unfold scoreStep
  split
  · exact raises_ok _
  · exact raises_bind (quiet_scoreItem s _) (fun _ => raises_ok _)

theorem quiet_bandRow (row : Json) : Quiet (bandRow row) :=
  raises_bind (quiet_subscript row _) (fun v => raises_bind (quiet_pyInt v) (fun _ =>
    raises_bind (quiet_subscript row _) (fun v => raises_bind (quiet_pyInt v) (fun _ =>
      raises_bind (quiet_subscript row _) (fun v => raises_bind (quiet_decimal v) (fun _ =>
        raises_ok _))))))

theorem quiet_scoringInputs (c : ContentStore) (testVersionId : ℕ) :
    Quiet (scoringInputs c testVersionId) := by
  refine raises_bind (raises_mapM (fun p => raises_map (quiet_groupRules _))) (fun items => ?_)
  exact raises_bind (raises_option_mapM (fun b => raises_map (raises_mapM quiet_bandRow)))
    (fun bandMap => raises_ok _)

theorem quiet_computeRun (s : Scorer) (db : Store) (a : Attempt) (reason : String) :
    Quiet (computeRun s db a reason) :=
  raises_bind (quiet_scoringInputs _ _) (fun _ => quiet_scoreAttempt _ _ _ _ _)

theorem quiet_numeric (precision scale : ℕ) (q : ℚ) : Quiet (numeric precision scale q) := by
  unfold numeric
  simp only
  split
  · exact raises_ok _
  · exact quiet_error rfl

theorem quiet_runRow (run : ScoreRun) (id attemptId : ℕ) (job initiator : Option ℕ) (now : Time) :
    Quiet (runRow run id attemptId job initiator now) :=
  raises_bind (raises_option_mapM quiet_intOfText) (fun _ =>
    raises_bind (quiet_numeric _ _ _) (fun _ => raises_bind (quiet_numeric _ _ _) (fun _ =>
      raises_bind (raises_option_mapM (quiet_numeric _ _)) (fun _ => raises_ok _))))

theorem quiet_itemScoreRows (c : ContentStore) (run : ScoreRun) (runId : ℕ) :
    Quiet (itemScoreRows c run runId) :=
  raises_mapM (fun _ => raises_bind (quiet_intOfText _) (fun _ =>
    raises_bind (raises_option_mapM quiet_intOfText) (fun _ =>
      raises_bind (quiet_numeric _ _ _) (fun _ => raises_bind (quiet_numeric _ _ _) (fun _ =>
        raises_ok _)))))

theorem quiet_addRun (db : Store) (run : ScoreRun) (attemptId : ℕ) (job initiator : Option ℕ)
    (now : Time) : Quiet (addRun db run attemptId job initiator now) :=
  raises_bind (quiet_runRow _ _ _ _ _ _) (fun _ =>
    raises_bind (quiet_itemScoreRows _ _ _) (fun _ => raises_ok _))

end IeltsHub.ScoringErrors
