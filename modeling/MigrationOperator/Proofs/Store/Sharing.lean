/-
Programs that share a server and are its only writers.

A `Service` says how calls may be answered and what becomes of the objects; `Serves` is one. A `Sharing` is the objects of
a namespace and the programs that work on them. A `Step` is one request of one program: it is served and its answer comes
back or is lost, or it fails without effect. A program that is never continued has crashed, and a restarted one is
another index, so a `Trace` is any interleaving of any number of interrupted and repeated programs. `Step.sent_cases` is
all that a step can do. A `Server` is a function that serves every proper call.
-/
import MigrationOperator.Proofs.Store.Trace

namespace MigrationOperator

/-- how calls may be answered: objects, a call, its answer, the write if it was accepted as one, the objects after it -/
abbrev Service := StringMap Json → Call → Answer → Option Write → StringMap Json → Prop

/-- the objects of a namespace, and what the programs that work on them have left to do -/
structure Sharing (α : Type) where
  objects : StringMap Json
  programs : Nat → Program α

namespace Sharing

variable {α : Type}

/-- the same after a program went on -/
def advance (S : Sharing α) (i : Nat) (p : Program α) (objects : StringMap Json) : Sharing α where
  objects := objects
  programs j := if j = i then p else S.programs j

/-- one request of one program -/
inductive Step (service : Service) (namespaceName : String) : Sharing α → Event → Sharing α → Prop where
  /-- a request is served; its answer comes back, or is lost -/
  | served {S : Sharing α} {i : Nat} {r : Request} {next : Answer → Program α} {a b : Answer} {w : Option Write}
    {objects : StringMap Json} (hi : S.programs i = .send r next) (hns : r.namespaceName = namespaceName)
    (h : service S.objects r.call b w objects) (ha : a = b ∨ a.Failed) :
    Step service namespaceName S (.sent i r a w) (S.advance i (next a) objects)
  /-- a request fails without effect -/
  | refused {S : Sharing α} {i : Nat} {r : Request} {next : Answer → Program α} {a : Answer}
    (hi : S.programs i = .send r next) (ha : a.Failed) :
    Step service namespaceName S (.sent i r a none) (S.advance i (next a) S.objects)

/-- requests one after another -/
inductive Trace (service : Service) (namespaceName : String) (S : Sharing α) : List Event → Sharing α → Prop where
  | start : Trace service namespaceName S [] S
  | step {es : List Event} {e : Event} {S' S'' : Sharing α} (h : Trace service namespaceName S es S')
    (hs : Step service namespaceName S' e S'') : Trace service namespaceName S (es ++ [e]) S''

variable {service : Service} {ns : String} {S S' S'' : Sharing α} {es fs : List Event} {e : Event}

/-- a trace may be continued by another -/
theorem Trace.append (h : Trace service ns S es S') (h' : Trace service ns S' fs S'') :
    Trace service ns S (es ++ fs) S'' := by
  induction h' with
  | start => rwa [List.append_nil]
  | step _ hs ih =>
    rw [← List.append_assoc]
    exact .step ih hs

theorem advance_self (S : Sharing α) (i : Nat) (p : Program α) (objects : StringMap Json) :
    (S.advance i p objects).programs i = p :=
  if_pos rfl

theorem advance_of_ne (S : Sharing α) {i j : Nat} (h : j ≠ i) (p : Program α) (objects : StringMap Json) :
    (S.advance i p objects).programs j = S.programs j :=
  if_neg h

/-- a request was served, and its answer came back or was lost, or it failed without effect -/
theorem Step.sent_cases (hs : Step service ns S e S') :
    ∃ i r next a w, e = .sent i r a w ∧ S.programs i = .send r next ∧ S' = S.advance i (next a) S'.objects ∧
      ((∃ b, r.namespaceName = ns ∧ service S.objects r.call b w S'.objects ∧ (a = b ∨ a.Failed)) ∨
        w = none ∧ S'.objects = S.objects ∧ a.Failed) := by
  cases hs with
  | served hi hns h ha => exact ⟨_, _, _, _, _, rfl, hi, rfl, Or.inl ⟨_, hns, h, ha⟩⟩
  | refused hi ha => exact ⟨_, _, _, _, _, rfl, hi, rfl, Or.inr ⟨rfl, rfl, ha⟩⟩

end Sharing

/-! ## Servers -/

/-- a server that holds the objects of a namespace and answers proper calls on them as the service has it -/
structure Server (service : Service) (namespaceName : String) (σ : Type) where
  objects : σ → StringMap Json
  serve : σ → Request → Answer × σ
  lawful : ∀ (s : σ) (r : Request), r.namespaceName = namespaceName → r.HasPlainNames → r.call.Proper →
    Stored (objects s) → ∃ w, service (objects s) r.call (serve s r).1 w (objects (serve s r).2)

/-- a server whose service is one of a store -/
def Server.asStore {service : Service} {namespaceName : String} {σ : Type} (server : Server service namespaceName σ)
    (h : ∀ {objs call a w objs'}, service objs call a w objs' → Serves objs call a w objs') : Store namespaceName σ where
  objects := server.objects
  serve := server.serve
  lawful s r hns hplain hproper hstored :=
    let ⟨w, hserved⟩ := server.lawful s r hns hplain hproper hstored
    ⟨w, h hserved⟩

end MigrationOperator
