import IeltsHub.PyText

set_option autoImplicit false

/-!
# Validation findings

The gate, the registry validator and the import pipeline return every problem at once. A report
is the list of its findings; it passes when none of them is an error.
-/
namespace IeltsHub.PlatformFindings

inductive Severity where
  | error
  | warning
  | info
  deriving DecidableEq, Repr

structure Finding where
  code : String
  severity : Severity := .error
  message : String
  path : String := ""
  subjectXid : Option String := none
  deriving DecidableEq, Repr

abbrev Report := List Finding

def Report.errors (r : Report) : List Finding := List.filter (fun f => f.severity = .error) r

def Report.warnings (r : Report) : List Finding := List.filter (fun f => f.severity = .warning) r

def Report.passed (r : Report) : Bool := r.errors.isEmpty

def findIf (p : Bool) (f : Finding) : Report := if p then [f] else []

theorem passed_iff {r : Report} : r.passed = true ↔ ∀ f ∈ r, f.severity ≠ .error := by
  simp [Report.passed, Report.errors]

theorem passed_append {r s : Report} :
    Report.passed (r ++ s) = true ↔ r.passed = true ∧ s.passed = true := by
  simp only [passed_iff, List.forall_mem_append]

theorem passed_flatten {rs : List Report} :
    Report.passed rs.flatten = true ↔ ∀ r ∈ rs, r.passed = true := by
  simp only [passed_iff, List.mem_flatten]
  grind

@[simp] theorem passed_nil : Report.passed [] = true := rfl

theorem passed_findIf {p : Bool} {f : Finding} (hf : f.severity = .error) :
    (findIf p f).passed = true ↔ p = false := by
  unfold findIf
  cases p <;> simp [passed_iff, hf]

end IeltsHub.PlatformFindings
