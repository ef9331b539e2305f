/-
Where requests are addressed.

The operator works in one namespace. A request is `Within` a namespace when its target begins with it, whatever names it
holds. Every request of the pipeline is within the namespace of the context, and so is every request of the adopter but
one: the patch that describes an unfinished object goes to the namespace that the object names, and to the one that
requests fall back to when it names none (`Strays`). The answer that listed the object decides it alone.

Results:
- `requests_confined`: for every conversation with the cluster, and for every run of the adopter against a server.
Witness: `exists_strayed_patch`, two runs whose one write leaves the namespace, to another one and to the default.
-/
import MigrationOperator.Proofs.Adoption.Persisting
import MigrationOperator.Proofs.Pipeline.Conversation
import MigrationOperator.Proofs.Resumption

namespace MigrationOperator

/-! ## Namespaces in targets -/

/-- the path ends at the first number sign or question mark -/
theorem Target.path_ofChars (cs : List Char) : (ofChars cs).path = (cs.takeWhile (· ≠ '#')).takeWhile (· ≠ '?') := by
  have hsplit := List.takeWhile_append_dropWhile (p := fun c => decide (c ≠ '?')) (l := cs.takeWhile (· ≠ '#'))
  rw [ofChars]
  split
  · rename_i hnone
    rw [hnone, List.append_nil] at hsplit
    exact hsplit.symm
  · rfl

/-- the steps before the namespace -/
def Call.root : Call → List String
  | .readSecret _ => ["api", "v1"]
  | .list => ["apis", SchemaVersion.group, SchemaVersion.canonical.name]
  | .create v _ | .read v _ | .replace v _ _ | .patchStatus v _ _ => ["apis", SchemaVersion.group, v.name]

theorem Call.root_eq (call : Call) :
    call.root = ["api", "v1"] ∨ ∃ v : SchemaVersion, call.root = ["apis", SchemaVersion.group, v.name] := by
  cases call with
  | readSecret => exact Or.inl rfl
  | _ => exact Or.inr ⟨_, rfl⟩

namespace Request

variable {ns : String} {r : Request}

/-- the target of a call in a namespace, up to what is asked for there -/
def base (ns : String) (call : Call) : List Char := Path.ofSteps (call.root ++ ["namespaces", ns]) ++ ['/']

theorem exists_steps_eq (r : Request) :
    ∃ step rest, r.steps = (r.call.root ++ ["namespaces", r.namespaceName]) ++ step :: rest := by
  obtain ⟨ns, call⟩ := r
  cases call <;> exact ⟨_, _, rfl⟩

theorem base_prefix_targetChars (r : Request) : base r.namespaceName r.call <+: r.targetChars := by
  obtain ⟨step, rest, hsteps⟩ := r.exists_steps_eq
  refine ⟨step.toList ++ Path.ofSteps rest ++ if r.call.takesParameters then ['?'] else [], ?_⟩
  have hcons : Path.ofSteps (step :: rest) = '/' :: (step.toList ++ Path.ofSteps rest) := rfl
  have happend : Path.ofSteps r.steps = Path.ofSteps (r.call.root ++ ["namespaces", r.namespaceName]) ++
      Path.ofSteps (step :: rest) := by
    rw [hsteps]
    exact List.flatMap_append
  rw [targetChars, happend, hcons, base]
  simp only [List.append_assoc, List.cons_append, List.nil_append]

/-- the request is addressed to a namespace -/
structure Within (ns : String) (r : Request) : Prop where
  namespaceName : r.namespaceName = ns
  /-- its target begins with the namespace -/
  target : base ns r.call <+: r.targetChars
  /-- and so does its path, when the namespace has no character that ends one -/
  path : (∀ ch ∈ ns.toList, ch ≠ '#' ∧ ch ≠ '?') → base ns r.call <+: r.target.path

theorem within_iff : r.Within ns ↔ r.namespaceName = ns := by
  refine ⟨fun h => h.namespaceName, ?_⟩
  rintro rfl
  obtain ⟨rest, hrest⟩ := r.base_prefix_targetChars
  refine ⟨rfl, ⟨rest, hrest⟩, fun hns => ?_⟩
  have hclear : ∀ {s : String}, isPlain s = true → ∀ ch ∈ s.toList, ch ≠ '#' ∧ ch ≠ '?' := by
    intro s hs ch hch
    have hplain := List.all_eq_true.1 hs ch hch
    simp only [Bool.and_eq_true, decide_eq_true_eq] at hplain
    exact ⟨hplain.2, hplain.1.2⟩
  have hroot : ∀ step ∈ r.call.root, isPlain step = true := by
    rcases r.call.root_eq with hroot | ⟨v, hroot⟩ <;> rw [hroot]
    · decide
    · cases v <;> decide
  have hbase : ∀ ch ∈ base r.namespaceName r.call, ch ≠ '#' ∧ ch ≠ '?' := by
    intro ch hch
    rcases List.mem_append.1 hch with hch | hch
    · obtain ⟨step, hstep, hch⟩ := List.mem_flatMap.1 hch
      rcases List.mem_cons.1 hch with rfl | hch
      · decide
      · rcases List.mem_append.1 hstep with hstep | hstep
        · exact hclear (hroot step hstep) ch hch
        · rcases List.mem_cons.1 hstep with rfl | hstep
          · exact hclear (by decide) ch hch
          · exact hns ch (List.mem_singleton.1 hstep ▸ hch)
    · obtain rfl := List.mem_singleton.1 hch
      decide
  rw [Request.target, Target.path_ofChars, ← hrest,
    List.takeWhile_append_of_pos fun ch hch => decide_eq_true (hbase ch hch).1,
    List.takeWhile_append_of_pos fun ch hch => decide_eq_true (hbase ch hch).2]
  exact List.prefix_append _ _

end Request

/-! ## The pipeline -/

/-- every stage of the pipeline asks in the namespace of the context -/
theorem Pipeline.Stage.within_of_request? {c : Context} {s : Pipeline.Stage} {r : Request}
    (h : s.request? c = some r) : r.Within c.namespaceName := by
  refine Request.within_iff.2 ?_
  cases s with
  | finished rep => exact absurd h nofun
  | _ =>
    obtain rfl := Option.some.inj h
    rfl

/-! ## The adopter -/

namespace Adoption

variable {c : Context} {es : List Exchange} {r : Request} {a : Answer} {stage : Stage}

/-- the request describes an unfinished object, the only one that the answer lists, and goes where the object says that it
is, or where requests fall back to, which is not the namespace of the context -/
structure Strays (c : Context) (listed : Answer) (r : Request) : Prop where
  describes : ∃ (list : ObjectList) (x : Opaque) (s : Settings) (pending : LegacyResource),
    Action.decode ObjectList.codec listed = .ok list ∧ list.items = [x] ∧
      unfinished? [x] (s.toResource c.namespaceName) = some pending ∧
      r.namespaceName = pending.metadata.namespaceName.getD c.defaultNamespace ∧
      r.call = .patchStatus .legacy pending.name (Writing.statusPatch pending.metadata.resourceVersion s.status)
  elsewhere : r.namespaceName ≠ c.namespaceName

namespace Stage

/-- an object that is to be described was listed -/
def Listed (c : Context) (es : List Exchange) : Stage → Prop
  | .resuming s pending => ∃ listed list x, ⟨⟨c.namespaceName, .list⟩, listed⟩ ∈ es ∧
      Action.decode ObjectList.codec listed = .ok list ∧ list.items = [x] ∧
      unfinished? [x] (s.toResource c.namespaceName) = some pending
  | .readingSecret | .listing _ | .creating _ | .describing _ _ | .finished _ => True

/-- the listing alone leads to such an object -/
theorem listed_next (h : stage.request? c = some r) : (stage.next c a).Listed c (es ++ [⟨r, a⟩]) := by
  cases stage with
  | readingSecret => rcases next_readingSecret_cases c a with ⟨s, hs⟩ | ⟨result, hs⟩ <;> rw [hs] <;> trivial
  | listing s =>
    obtain rfl := Option.some.inj h
    rw [next]
    cases hlist : Action.decode ObjectList.codec a with
    | error e =>
      dsimp only
      split <;> trivial
    | ok list =>
      dsimp only [afterListing]
      split
      · trivial
      · cases hpending : unfinished? list.items (s.toResource c.namespaceName) with
        | none => trivial
        | some pending =>
          obtain ⟨x, found, hitems, -⟩ := exists_of_unfinished hpending
          exact ⟨a, list, x, List.mem_append_right _ (List.mem_singleton_self _), hlist, hitems, hitems ▸ hpending⟩
  | creating s =>
    rw [next]
    cases Action.decode Legacy.kind.codec a <;> trivial
  | describing s created =>
    obtain ⟨result, hs⟩ := exists_next_describing c s created a
    rw [hs]
    trivial
  | resuming s pending =>
    obtain ⟨result, hs⟩ := exists_next_resuming c s pending a
    rw [hs]
    trivial
  | finished result => cases h

/-- a stage asks in the namespace of the context, unless an object that was listed leads elsewhere -/
theorem within_or_strays (hr : stage.request? c = some r) (h : stage.Listed c es) :
    r.Within c.namespaceName ∨ ∃ listed, ⟨⟨c.namespaceName, .list⟩, listed⟩ ∈ es ∧ Strays c listed r := by
  rw [Request.within_iff]
  cases stage with
  | finished result => exact absurd hr nofun
  | resuming s pending =>
    obtain rfl := Option.some.inj hr
    obtain ⟨listed, list, x, hmem, hlist, hitems, hpending⟩ := h
    refine Decidable.or_iff_not_imp_left.2 fun helsewhere => ⟨listed, hmem, ?_, helsewhere⟩
    exact ⟨list, x, s, pending, hlist, hitems, hpending, rfl, rfl⟩
  | _ =>
    obtain rfl := Option.some.inj hr
    exact Or.inl rfl

end Stage

/-- a program that persists sends the requests of stages, with what was listed for them -/
theorem Persists.within_or_strays {p : Program (Option Adoption)} {next : Answer → Program (Option Adoption)}
    {before : List Exchange} (h : Persists c stage p) (hlisted : stage.Listed c before)
    (hreach : p.Reaches es (.send r next)) :
    r.Within c.namespaceName ∨ ∃ listed, ⟨⟨c.namespaceName, .list⟩, listed⟩ ∈ before ++ es ∧ Strays c listed r := by
  generalize hsend : Program.send r next = q at hreach
  induction hreach generalizing before stage with
  | start p =>
    subst hsend
    rw [List.append_nil]
    rcases h.of_send with ⟨hr, -⟩ | ⟨hr, -⟩
    · exact Stage.within_or_strays hr hlisted
    · exact Stage.within_or_strays hr (show Stage.readingSecret.Listed c before from trivial)
  | @ask r' next' a es q _ ih =>
    rw [List.append_cons]
    rcases h.of_send with ⟨hr, hnext⟩ | ⟨hr, hnext⟩
    · exact ih (hnext a) (Stage.listed_next hr) hsend
    · exact ih (hnext a) (Stage.listed_next hr) hsend

theorem within_or_strays_of_reaches {n : Nat} {next : Answer → Program (Option Adoption)}
    (h : (persisting c n).Reaches es (.send r next)) :
    r.Within c.namespaceName ∨ ∃ listed, ⟨⟨c.namespaceName, .list⟩, listed⟩ ∈ es ∧ Strays c listed r :=
  (persists_persisting c n).within_or_strays (show Stage.readingSecret.Listed c [] from trivial) h

/-- the adopter sends what the program does -/
theorem within_or_strays_of_mem_requests {σ : Type} {serve : σ → Request → Answer × σ} {cancelled : σ → Bool}
    {p : Retry.Policy} {cancelledBefore : Bool} {fuel : Nat} {s : σ}
    (h : r ∈ (Adopter.run serve cancelled c p cancelledBefore fuel s).state.requests) :
    r.Within c.namespaceName ∨ ∃ t, Strays c (serve t ⟨c.namespaceName, .list⟩).1 r := by
  obtain ⟨n, -, -, -, hrequests⟩ := exists_enacts serve cancelled c p cancelledBefore fuel s
  rw [hrequests, List.nil_append, ← Program.map_request_conversation] at h
  obtain ⟨e, he, rfl⟩ := List.mem_map.1 h
  obtain ⟨before, after, hsplit⟩ := List.append_of_mem he
  have hreach := (persisting c n).reaches_conversation serve s
  rw [hsplit] at hreach
  obtain ⟨next, hnext⟩ := hreach.exists_of_append
  refine (within_or_strays_of_reaches hnext).imp_right ?_
  rintro ⟨listed, hmem, hstrays⟩
  obtain ⟨t, ht⟩ := Program.exists_serve_of_mem_conversation (hsplit ▸ List.mem_append_left _ hmem)
  exact ⟨t, ht ▸ hstrays⟩

end Adoption

/-! ## Both -/

/-- **Requests are confined to the namespace of the context,** but for the patch that describes an unfinished object: that
one follows the object. -/
theorem requests_confined (c : Context) :
    (∀ es r next, (Pipeline.run c).Reaches es (.send r next) → r.Within c.namespaceName) ∧
      (∀ n es r next, (Adoption.persisting c n).Reaches es (.send r next) → r.Within c.namespaceName ∨
        ∃ listed, ⟨⟨c.namespaceName, .list⟩, listed⟩ ∈ es ∧ Adoption.Strays c listed r) ∧
      ∀ (σ : Type) (serve : σ → Request → Answer × σ) (cancelled : σ → Bool) (p : Retry.Policy) (cancelledBefore : Bool)
        (fuel : Nat) (s : σ), ∀ r ∈ (Adopter.run serve cancelled c p cancelledBefore fuel s).state.requests,
          r.Within c.namespaceName ∨ ∃ t, Adoption.Strays c (serve t ⟨c.namespaceName, .list⟩).1 r := by
  refine ⟨fun es r next h => ?_, fun n es r next h => ?_, fun σ serve cancelled p cancelledBefore fuel s r hr => ?_⟩
  · exact Pipeline.Stage.within_of_request? ((Pipeline.runs_run c).of_reaches h).2.of_send.1
  · exact Adoption.within_or_strays_of_reaches h
  · exact Adoption.within_or_strays_of_mem_requests hr

/-- a server of an installation with one object, which no adoption finished, in a namespace or in none -/
def unfinishedServer (ns : Option String) (_ : Unit) (r : Request) : Answer × Unit :=
  let secret : Json := .obj [("data", .obj [("ROUTE_HOSTNAME", .str "Zm9v"), ("SYNDESIS_VERSION", .str "MS44")])]
  let metadata := [("name", .str "app"), ("resourceVersion", .str "6")] ++ (ns.map fun ns => ("namespace", .str ns)).toList
  let object : Json := .object [("metadata", .object metadata), ("spec", .obj [("routeHostname", .str "foo")])]
  match r.call with
  | .readSecret _ => (.ofJson 200 secret, ())
  | .list => (.ofJson 200 (.object [("items", .arr [object])]), ())
  | _ => (.ofJson 200 object, ())

/-- in the namespace `test` one patch goes to another namespace, and one to the default -/
theorem exists_strayed_patch :
    let requests ns := (Adopter.run (unfinishedServer ns) (fun _ => false) { namespaceName := "test" } { interval := 5000 }
      false 1 ()).state.requests
    (requests (some "other")).map (·.path) = ["/api/v1/namespaces/test/secrets/syndesis-global-config",
        "/apis/syndesis.io/v1beta1/namespaces/test/syndesises",
        "/apis/syndesis.io/v1alpha1/namespaces/other/syndesises/app/status"] ∧
      (requests none).map (·.path) = ["/api/v1/namespaces/test/secrets/syndesis-global-config",
        "/apis/syndesis.io/v1beta1/namespaces/test/syndesises",
        "/apis/syndesis.io/v1alpha1/namespaces/default/syndesises/app/status"] ∧
      ∀ ns ∈ [some "other", none], ∃ r ∈ requests ns, r.isWrite = true ∧ ¬ r.Within "test" := by
  intro requests
  let summary (r : Request) := (r.path, r.isWrite, r.namespaceName)
  have hother : (requests (some "other")).map summary =
      [("/api/v1/namespaces/test/secrets/syndesis-global-config", false, "test"),
        ("/apis/syndesis.io/v1beta1/namespaces/test/syndesises", false, "test"),
        ("/apis/syndesis.io/v1alpha1/namespaces/other/syndesises/app/status", true, "other")] := by decide +kernel
  have hnone : (requests none).map summary =
      [("/api/v1/namespaces/test/secrets/syndesis-global-config", false, "test"),
        ("/apis/syndesis.io/v1beta1/namespaces/test/syndesises", false, "test"),
        ("/apis/syndesis.io/v1alpha1/namespaces/default/syndesises/app/status", true, "default")] := by decide +kernel
  have hpaths : ∀ ns, ((requests ns).map summary).map (·.1) = (requests ns).map (·.path) := fun _ => List.map_map
  have hstray : ∀ ns path target, (path, true, target) ∈ (requests ns).map summary → target ≠ "test" →
      ∃ r ∈ requests ns, r.isWrite = true ∧ ¬ r.Within "test" := by
    intro ns path target hmem htarget
    obtain ⟨r, hr, hsummary⟩ := List.mem_map.1 hmem
    obtain ⟨-, hwrite, rfl⟩ : r.path = path ∧ r.isWrite = true ∧ r.namespaceName = target := by
      simpa [summary] using hsummary
    exact ⟨r, hr, hwrite, fun hwithin => htarget hwithin.namespaceName⟩
  refine ⟨?_, ?_, fun ns hns => ?_⟩
  · rw [← hpaths, hother]
    rfl
  · rw [← hpaths, hnone]
    rfl
  · rcases List.mem_cons.1 hns with rfl | hns
    · have hlast := List.mem_of_getLast? (congrArg List.getLast? hother)
      exact hstray _ _ _ hlast (by decide)
    · obtain rfl := List.mem_singleton.1 hns
      have hlast := List.mem_of_getLast? (congrArg List.getLast? hnone)
      exact hstray _ _ _ hlast (by decide)

end MigrationOperator
