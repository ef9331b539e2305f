/-
Metrics of the operator and their text exposition.

There are two counters by result and one gauge by namespace and schema version. Series are told apart by their label values
joined together. A family appears once it has a series; the families are sorted by name and their series by label values.
Values pass through a floating point number of 64 bits.
-/
import MigrationOperator.Adoption
import MigrationOperator.Pipeline
import MigrationOperator.Retry

namespace MigrationOperator

structure Metrics where
  /-- runs of the pipeline by result -/
  migrations : StringMap Nat := .empty
  /-- attempts of the adoption by result -/
  adoptions : StringMap Nat := .empty
  /-- objects found, by namespace and version -/
  instances : StringMap (StringMap Int) := .empty

namespace Metrics

def empty : Metrics := {}

/-- the result that stands for any error -/
def errorLabel : String := "error"

/-! ## Recording -/

/-- the value of a counter; zero before its first run -/
def countOf (counts : StringMap Nat) (label : String) : Nat := (counts.get? label).getD 0

def bump (counts : StringMap Nat) (label : String) : StringMap Nat := counts.insert label (countOf counts label + 1)

@[simp] theorem countOf_empty (label : String) : countOf .empty label = 0 := rfl

@[simp] theorem countOf_bump (counts : StringMap Nat) (label label' : String) :
    countOf (bump counts label) label' = countOf counts label' + if label' = label then 1 else 0 := by
  rw [countOf, bump, StringMap.get?_insert]
  by_cases h : label' = label
  · rw [if_pos h, if_pos h, h]
    rfl
  · rw [if_neg h, if_neg h]
    rfl

def countMigration (m : Metrics) (label : String) : Metrics := { m with migrations := bump m.migrations label }

def countAdoption (m : Metrics) (label : String) : Metrics := { m with adoptions := bump m.adoptions label }

/-- the label values of every gauge -/
def gauges (m : Metrics) : List (String × String) :=
  m.instances.entries.flatMap fun e => e.2.entries.map fun v => (e.1, v.1)

/-- the gauge for a namespace and a version; an older one whose label values join to the same text stands for both -/
def gaugeOf (m : Metrics) (namespaceName version : String) : String × String :=
  (m.gauges.find? fun g => g.1 ++ g.2 = namespaceName ++ version).getD (namespaceName, version)

/-- set a gauge -/
def setInstances (m : Metrics) (namespaceName version : String) (count : Int) : Metrics :=
  let (namespaceName, version) := m.gaugeOf namespaceName version
  { m with
    instances := m.instances.insert namespaceName
      (((m.instances.get? namespaceName).getD .empty).insert version count) }

/-- set the gauges of a namespace -/
def setCensus (m : Metrics) (namespaceName : String) (census : Pipeline.Census) : Metrics :=
  (m.setInstances namespaceName SchemaVersion.legacy.apiVersion census.legacy).setInstances
    namespaceName SchemaVersion.canonical.apiVersion census.canonical

/-- set the gauges if a census was taken -/
def recordCensus (m : Metrics) (namespaceName : String) : Option Pipeline.Census → Metrics
  | some census => m.setCensus namespaceName census
  | none => m

/-- a run of the pipeline: the gauges if it got that far, and one more run of its result -/
def recordRun (m : Metrics) (namespaceName : String) (r : Pipeline.Report Pipeline.Outcome) : Metrics :=
  (m.recordCensus namespaceName r.census).countMigration <|
    match r.result with
    | .ok outcome => outcome.label
    | .error _ => errorLabel

/-- a run of the adoption: one attempt for each failure, and one for the success -/
def recordAdoption {ε σ : Type} (m : Metrics) (r : Retry.Run ε Adoption σ) : Metrics :=
  let m := r.failures.foldl (fun m _ => m.countAdoption errorLabel) m
  match r.result with
  | some adoption => m.countAdoption adoption.label
  | none => m

/-! ## Exposition -/

/-- a label value in double quotes -/
def quoteLabel (s : String) : String :=
  let escape (c : Char) : String :=
    match c with
    | '\\' => "\\\\"
    | '"' => "\\\""
    | '\n' => "\\n"
    | c => String.singleton c
  "\"" ++ String.join (s.toList.map escape) ++ "\""

/-- a value as a floating point number; an integer of 64 bits always is one -/
def valueText (n : Int) : String :=
  match Binary64.ofInt n with
  | some x => Layout.plain.render x
  | none => toString n

structure Series where
  labels : List (String × String)
  value : Int

structure Family where
  name : String
  help : String
  type : String
  series : List Series

def Series.line (family : String) (s : Series) : String :=
  family ++ "\x7b" ++ String.intercalate "," (s.labels.map fun l => l.1 ++ "=" ++ quoteLabel l.2) ++ "\x7d " ++
    valueText s.value

/-- the lines of a family; none without series -/
def Family.lines (f : Family) : List String :=
  if f.series.isEmpty then []
  else
    ("# HELP " ++ f.name ++ " " ++ f.help) :: ("# TYPE " ++ f.name ++ " " ++ f.type) :: f.series.map (·.line f.name)

def resultSeries (counts : StringMap Nat) : List Series :=
  counts.entries.map fun e => ⟨[("result", e.1)], e.2⟩

def instanceSeries (instances : StringMap (StringMap Int)) : List Series :=
  instances.entries.flatMap fun e => e.2.entries.map fun v => ⟨[("namespace", e.1), ("version", v.1)], v.2⟩

/-- the families in the order of their names -/
def families (m : Metrics) : List Family :=
  [ { name := "syndesis_operator_api_instances"
      help := "Syndesis resources found at startup per schema version"
      type := "gauge"
      series := instanceSeries m.instances },
    { name := "syndesis_operator_legacy_adoption_attempts_total"
      help := "Attempts to adopt a pre-CRD installation"
      type := "counter"
      series := resultSeries m.adoptions },
    { name := "syndesis_operator_migrations_total"
      help := "Outcomes of the startup API migration pipeline"
      type := "counter"
      series := resultSeries m.migrations } ]

def lines (m : Metrics) : List String := m.families.flatMap Family.lines

/-- the exposition as one text -/
def text (m : Metrics) : String := String.join (m.lines.map (· ++ "\n"))

end Metrics

end MigrationOperator
