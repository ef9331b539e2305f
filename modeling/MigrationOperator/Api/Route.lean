/-
What the cluster understands of a request.

It sees method, path and body alone, and reads the names off the path; the namespace makes no difference. A request whose
namespace and name are plain, without slash, question mark and number sign, is understood as it was meant
(`understood?_eq_call`). Any other may lead elsewhere, or nowhere.
-/
import MigrationOperator.Api.Request

namespace MigrationOperator

/-- what a path leads to -/
inductive Destination where
  | secret (name : String)
  /-- all objects of the kind -/
  | collection (version : SchemaVersion)
  | object (version : SchemaVersion) (name : String)
  | status (version : SchemaVersion) (name : String)
deriving DecidableEq

namespace Destination

/-- where the steps behind a namespace lead among the objects of the kind -/
def ofKindSteps? (v : SchemaVersion) : List String → Option Destination
  | [plural] => if plural = SchemaVersion.plural then some (.collection v) else none
  | [plural, name] => if plural = SchemaVersion.plural then some (.object v name) else none
  | [plural, name, part] => if plural = SchemaVersion.plural ∧ part = "status" then some (.status v name) else none
  | _ => none

def ofSteps? : List String → Option Destination
  | ["api", "v1", "namespaces", _, "secrets", name] => some (.secret name)
  | "apis" :: group :: version :: "namespaces" :: _ :: steps =>
    if group = SchemaVersion.group then (SchemaVersion.ofName? version).bind (ofKindSteps? · steps) else none
  | _ => none

/-- what a method asks of a destination; none when it does not go with it -/
def call? (m : Method) (body : Option Json) (d : Destination) : Option Call :=
  match d, m, body with
  | .secret name, .get, _ => some (.readSecret name)
  | .collection _, .get, _ => some .list
  | .collection v, .post, some b => some (.create v b)
  | .object v name, .get, _ => some (.read v name)
  | .object v name, .put, some b => some (.replace v name b)
  | .status v name, .patch, some b => some (.patchStatus v name b)
  | _, _, _ => none

end Destination

namespace Request

/-- what a request asks for as the cluster reads it -/
def understood? (r : Request) : Option Call :=
  ((Path.steps? r.target.path).bind Destination.ofSteps?).bind (Destination.call? r.method r.body)

/-! ## Plain names -/

/-- neither slash nor question mark nor number sign -/
def isPlain (s : String) : Bool := s.toList.all fun c => c ≠ '/' && c ≠ '?' && c ≠ '#'

/-- the namespace and the name, if there is one, are plain -/
def HasPlainNames (r : Request) : Prop := isPlain r.namespaceName ∧ ∀ name, r.call.name? = some name → isPlain name

theorem ofChars_append {a b : List Char} (h : ∀ c ∈ a, c ≠ '?' ∧ c ≠ '#') (hb : b = [] ∨ b = ['?']) :
    Target.ofChars (a ++ b) = ⟨a, if b = [] then none else some []⟩ := by
  have hq : ∀ c ∈ a, (decide (c ≠ '?')) = true := fun c hc => by simpa using (h c hc).1
  have hh : ∀ c ∈ a, (decide (c ≠ '#')) = true := fun c hc => by simpa using (h c hc).2
  have hcut : (a ++ b).takeWhile (fun c => decide (c ≠ '#')) = a ++ b := by
    rw [List.takeWhile_append_of_pos hh]
    rcases hb with rfl | rfl <;> rfl
  rcases hb with rfl | rfl
  · simp only [Target.ofChars, hcut, List.dropWhile_append_of_pos hq]
    simp
  · simp only [Target.ofChars, hcut, List.dropWhile_append_of_pos hq, List.takeWhile_append_of_pos hq]
    simp

/-- the steps of a request with plain names are plain -/
theorem isPlain_of_mem_steps {r : Request} (h : r.HasPlainNames) {s : String} (hs : s ∈ r.steps) : isPlain s := by
  obtain ⟨ns, call⟩ := r
  obtain ⟨hns, hn⟩ := h
  have hgroup : isPlain SchemaVersion.group := by decide
  have hplural : isPlain SchemaVersion.plural := by decide
  have hversion : ∀ v : SchemaVersion, isPlain v.name := by intro v; cases v <;> decide
  have hconst : isPlain "api" ∧ isPlain "apis" ∧ isPlain "v1" ∧ isPlain "namespaces" ∧ isPlain "secrets" ∧
      isPlain "status" := by decide
  cases call <;> simp [steps, collection, Call.name?] at hs hn hns <;> grind

/-- with plain names the path is the one that was written, and the query is empty -/
theorem target_of_plain {r : Request} (h : r.HasPlainNames) :
    r.target = ⟨Path.ofSteps r.steps, if r.call.takesParameters then some [] else none⟩ := by
  refine (ofChars_append (fun c hc => ?_) (by split <;> simp)).trans (by split <;> rfl)
  obtain ⟨s, hs, hc⟩ := List.mem_flatMap.1 hc
  rcases List.mem_cons.1 hc with rfl | hc
  · decide
  · have := List.all_eq_true.1 (isPlain_of_mem_steps h hs) c hc
    grind

/-- a request with plain names is understood as it was meant -/
theorem understood?_eq_call {r : Request} (h : r.HasPlainNames) : r.understood? = some r.call := by
  have hsteps : Path.steps? r.target.path = some r.steps := by
    rw [target_of_plain h]
    refine Path.steps?_ofSteps fun s hs hm => ?_
    have := List.all_eq_true.1 (isPlain_of_mem_steps h hs) _ hm
    simp at this
  obtain ⟨ns, call⟩ := r
  rw [understood?, hsteps]
  cases call <;>
    simp [steps, collection, Destination.ofSteps?, Destination.ofKindSteps?, Destination.call?, method, body, Call.method,
      Call.body]

end Request

end MigrationOperator
