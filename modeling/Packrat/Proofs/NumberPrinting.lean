import Packrat.CommandLine.Report
import Packrat.Proofs.DoubleRange
import Packrat.Proofs.JsonPrinting

/-!
# Number literals printed back

The command accepts every number literal and prints the double that it denotes.  If the exact
value of the literal lies below the limit of doubles, what is printed is a literal of the same
double.  Any other literal is accepted too, but its double is infinite and is printed as null.
-/

namespace Packrat

theorem Json.parse_unique {source : String} {one other : Json}
    (first : ∃ steps final, parse steps source = .done (.ok one) final)
    (second : ∃ steps final, parse steps source = .done (.ok other) final) : one = other := by
  obtain ⟨symbol, rfl, accepted⟩ := parse_eq_ok_iff.mp first
  obtain ⟨symbolToo, rfl, acceptedToo⟩ := parse_eq_ok_iff.mp second
  obtain ⟨_, _, ends, rfl, -⟩ := Setting.parse_eq_ok_iff.mp accepted
  obtain ⟨_, _, endsToo, rfl, -⟩ := Setting.parse_eq_ok_iff.mp acceptedToo
  cases (ends.unique endsToo).1
  rfl

namespace CommandLine

def Job.shown (job : Job) (json : Json) : String := if job.pretty then json.pretty else json.compact

/-- The command accepts a source as that of a value and prints a line, and no complaint. -/
def Job.Prints (job : Job) (source : String) (json : Json) (printed : String) : Prop :=
  ∃ steps final, Json.parse steps source = .done (.ok json) final ∧
    job.report steps (.ok source.toUTF8) =
      ⟨0, printed ++ "\n", asLines (job.diagnosticLines final.journal)⟩

theorem fromUTF8?_toUTF8 (source : String) : String.fromUTF8? source.toUTF8 = some source :=
  dif_pos source.isValidUTF8

section Printed

variable {source : String} {json : Json}

theorem Job.report_accepted (job : Job) {steps : Nat} {final : State Json.Grammar.Part}
    (done : Json.parse steps source = .done (.ok json) final) :
    job.report steps (.ok source.toUTF8) =
      ⟨0, job.shown json ++ "\n", asLines (job.diagnosticLines final.journal)⟩ := by
  simp only [Job.report, fromUTF8?_toUTF8, Job.reportOn, done, asLines, List.map_cons,
    List.map_nil, String.join_cons, String.join_nil, String.append_empty, Job.shown]

/-- Every JSON text is printed in the form that is asked for. -/
theorem Job.prints_of_isDocument (job : Job) (isDocument : Json.IsDocument source.toList json) :
    job.Prints source json (job.shown json) := by
  obtain ⟨steps, final, done⟩ := isDocument.parses
  exact ⟨steps, final, done, job.report_accepted done⟩

theorem Job.Prints.unique {job : Job} {other : Json} {printed : String}
    (prints : job.Prints source json printed) (isDocument : Json.IsDocument source.toList other) :
    json = other ∧ printed = job.shown json := by
  obtain ⟨steps, final, done, shows⟩ := prints
  refine ⟨Json.parse_unique ⟨steps, final, done⟩ isDocument.parses, ?_⟩
  have output := (job.report_accepted done).symm.trans shows
  injection output with _ output _
  exact ((String.append_left_inj _).mp output).symm

end Printed

end CommandLine

namespace Json

open CommandLine Double

theorem shown_number (job : Job) (number : Double) :
    job.shown (.number number) = numberLiteral number := by
  simp only [Job.shown, compact, pretty, prettyPieces, String.join_cons, String.join_nil,
    String.append_empty, ite_self]

theorem shown_null (job : Job) : job.shown .null = "null" := by
  simp only [Job.shown, compact, pretty, prettyPieces, String.join_cons, String.join_nil,
    String.append_empty, ite_self]

theorem IsValue.isLine {text : String} {json : Json} (isValue : IsValue text.toList json) :
    IsDocument (text ++ "\n").toList json := by
  have ends : Blanks ['\n'] := forall_mem_of_all (by decide)
  rw [String.toList_append]
  exact .value noBlanks isValue ends

/-- The magnitude of a number literal is a decimal: its digits count a power of ten. -/
inductive Measures : List Char → ℚ → Prop where
  | parts {minus whole fraction exponent : List Char} {power : Int} : minus ∈ [[], ['-']] →
      IsWhole whole → IsFraction fraction → IsExponent exponent →
      readExponent exponent = some power →
      Measures (minus ++ (whole ++ (fraction ++ exponent)))
        (decimalValue (Signed.digitsValue (whole ++ fraction.tail)) (power - fraction.tail.length))

section Literals

variable {literal : List Char} {magnitude : ℚ}

theorem IsNumber.exists_measure (number : IsNumber literal) :
    ∃ magnitude, Measures literal magnitude := by
  cases number with
  | parts signed isWhole isFraction isExponent =>
      obtain ⟨power, read⟩ := isExponent.readExponent
      exact ⟨_, .parts signed isWhole isFraction isExponent read⟩

/-- A literal denotes a finite double exactly if its magnitude lies below the limit. -/
theorem IsNumber.isFinite_iff (number : IsNumber literal) (measures : Measures literal magnitude) :
    number.double.isFinite = true ↔ magnitude < overflowLimit := by
  cases measures with
  | @parts minus whole fraction exponent power signed isWhole isFraction isExponent read =>
      have magnitude := IsMagnitude.parts isWhole isFraction isExponent read
      rw [← ofDecimal_lt_infinityCode_iff, isFinite, decide_eq_true_eq]
      generalize ofDecimal (Signed.digitsValue (whole ++ fraction.tail)) _ = code at magnitude ⊢
      have denotes (negative : Bool) (sign : minus = if negative then ['-'] else []) :
          number.double = ⟨negative, code⟩ := by
        have reads := ofLiteral?_signed negative magnitude.starts magnitude.readMagnitude
        rw [← sign, number.ofLiteral?] at reads
        exact Option.some.inj reads
      simp only [List.mem_cons, List.not_mem_nil, or_false] at signed
      rcases signed with rfl | rfl
      · rw [denotes false rfl]
      · rw [denotes true rfl]

end Literals

/--
A number literal is accepted, whatever is asked for, and one line is printed.  Below the limit the
line is a literal that is accepted as the same double and printed as it stands; from the limit on
it is null.
-/
theorem number_reprinted {source : String} (number : IsNumber source.toList) (job : Job) :
    ∃ double printed, job.Prints source (.number double) printed ∧
      (∃ magnitude, Measures source.toList magnitude) ∧
      ∀ magnitude, Measures source.toList magnitude →
        (magnitude < overflowLimit → IsNumber printed.toList ∧
          ∀ other : Job, other.Prints (printed ++ "\n") (.number double) printed) ∧
        (overflowLimit ≤ magnitude → printed = "null" ∧
          ∀ other : Job, other.Prints (printed ++ "\n") .null printed) := by
  have prints := job.prints_of_isDocument (IsValue.number number).isDocument
  rw [shown_number] at prints
  refine ⟨number.double, _, prints, number.exists_measure, fun magnitude measures => ?_⟩
  have finite_iff := number.isFinite_iff measures
  refine ⟨fun below => ?_, fun beyond => ?_⟩
  · have finite := finite_iff.mpr below
    have isNumber := (text_reads_back finite).1
    refine ⟨by rwa [numberLiteral, if_pos finite], fun other => ?_⟩
    have reprints := other.prints_of_isDocument (numberLiteral_isValue finite).isLine
    rwa [shown_number] at reprints
  · have infinite : ¬ number.double.isFinite = true := fun finite =>
      not_lt.mpr beyond (finite_iff.mp finite)
    rw [numberLiteral, if_neg infinite]
    refine ⟨rfl, fun other => ?_⟩
    have line : IsDocument ("null" ++ "\n").toList .null := IsValue.isLine .null
    have reprints := other.prints_of_isDocument line
    rwa [shown_null] at reprints

theorem half_isFraction : IsFraction ".50".toList :=
  .present ⟨List.cons_ne_nil '5' ['0'], forall_mem_of_all (by decide)⟩

theorem half_isNumber : IsNumber "0.50".toList :=
  .parts List.mem_cons_self .zero half_isFraction .absent

theorem half_measures : Measures "0.50".toList (decimalValue 50 (-2)) :=
  .parts List.mem_cons_self .zero half_isFraction .absent rfl

theorem number_reprinted_half :
    IsNumber "0.50".toList ∧
      ∃ double printed, Job.Prints ⟨"-", false, .warn⟩ "0.50" (.number double) printed ∧
        IsNumber printed.toList ∧
        ∀ other : Job, other.Prints (printed ++ "\n") (.number double) printed := by
  have below : decimalValue 50 (-2) < overflowLimit :=
    (ofDecimal_lt_infinityCode_iff 50 (-2)).mp (by decide +kernel)
  obtain ⟨double, printed, prints, -, follows⟩ :=
    number_reprinted half_isNumber ⟨"-", false, .warn⟩
  exact ⟨half_isNumber, double, printed, prints, (follows _ half_measures).1 below⟩

theorem null_not_isNumber : ¬ IsNumber "null".toList := fun number => by
  have same := (IsValue.number number).isDocument.unique IsValue.null.isDocument
  cases same

/-- A literal beyond all doubles is accepted, and what is printed is no number literal. -/
theorem huge_number_printed_as_null :
    IsNumber "1e400".toList ∧
      Job.Prints ⟨"-", false, .warn⟩ "1e400" (.number ⟨false, infinityCode⟩) "null" ∧
      ¬ ∃ double printed, Job.Prints ⟨"-", false, .warn⟩ "1e400" (.number double) printed ∧
        IsNumber printed.toList := by
  have digit : ∀ c ∈ ([] : List Char), IsDigit c := fun _ none => absurd none List.not_mem_nil
  have one : IsWhole ['1'] := .positive (by decide) (by decide) digit
  have hundreds : IsExponent ('e' :: ([] ++ ['4', '0', '0'])) :=
    .present (by decide) List.mem_cons_self ⟨List.cons_ne_nil _ _, forall_mem_of_all (by decide)⟩
  have number : IsNumber "1e400".toList := .parts List.mem_cons_self one .absent hundreds
  have denotes : number.double = ⟨false, infinityCode⟩ := by
    have read : Double.ofLiteral? "1e400" = some ⟨false, infinityCode⟩ := by decide +kernel
    have reads := number.ofLiteral?
    rw [String.ofList_toList, read] at reads
    exact (Option.some.inj reads).symm
  have isDocument := (IsValue.number number).isDocument
  rw [denotes] at isDocument
  have prints := Job.prints_of_isDocument ⟨"-", false, .warn⟩ isDocument
  rw [shown_number] at prints
  refine ⟨number, prints, ?_⟩
  rintro ⟨double, printed, printsToo, isNumber⟩
  obtain ⟨same, rfl⟩ := printsToo.unique isDocument
  rw [same, shown_number] at isNumber
  exact null_not_isNumber isNumber

end Json

end Packrat
