/-
Addon switches of the canonical schema.

`Addon` lists the addons the schema knows. Each has an enabled flag; `Addons.enabled` and `Addons.setEnabled` are the view
and the update of it, and the laws say that a flag reads what was last written to it and that nothing else moves.

The names of the addons are kept in three places: `Addon.name` is what stands in a document, `Addon.known` is what the
schema announces, and `Addon.ofName?` is what a flag is looked up by.
-/
import MigrationOperator.Resource.Legacy

namespace MigrationOperator.Canonical

inductive Addon where
  | jaeger
  | ops
  | todo
  | knative
  | dv
  | camelk
  | publicApi
deriving DecidableEq

namespace Addon

/-- the addons in the order of the schema -/
def all : List Addon := [.jaeger, .ops, .todo, .knative, .dv, .camelk, .publicApi]

/-- the name in documents of either schema -/
def name : Addon → String
  | .jaeger => "jaeger"
  | .ops => "ops"
  | .todo => "todo"
  | .knative => "knative"
  | .dv => "dv"
  | .camelk => "camelk"
  | .publicApi => "publicApi"

/-- the names that the schema announces, in its order -/
def known : List String := ["jaeger", "ops", "todo", "knative", "dv", "camelk", "publicApi"]

/-- the addon that is looked up by a name -/
def ofName? : String → Option Addon
  | "jaeger" => some .jaeger
  | "ops" => some .ops
  | "todo" => some .todo
  | "knative" => some .knative
  | "dv" => some .dv
  | "camelk" => some .camelk
  | "publicApi" => some .publicApi
  | _ => none

end Addon

/-- the memory a component may use -/
structure Resources where
  memory : String := ""
deriving DecidableEq, Inhabited

structure AddonSpec where
  enabled : Bool := false
deriving DecidableEq, Inhabited

structure JaegerConfiguration where
  enabled : Bool := false
  clientOnly : Bool := false
  operatorOnly : Bool := false
  queryUri : String := ""
  collectorUri : String := ""
  samplerType : String := ""
  samplerParam : String := ""
deriving DecidableEq, Inhabited

structure DvConfiguration where
  enabled : Bool := false
  resources : Resources := {}
deriving DecidableEq, Inhabited

structure PublicApiConfiguration where
  enabled : Bool := false
  /-- hostname of the exposed interface -/
  routeHostname : String := ""
  /-- any authenticated user may use the interface -/
  disableSarCheck : Bool := false
deriving DecidableEq, Inhabited

/-- addon switches; every addon has at least an enabled flag -/
structure Addons where
  jaeger : JaegerConfiguration := {}
  ops : AddonSpec := {}
  todo : AddonSpec := {}
  knative : AddonSpec := {}
  dv : DvConfiguration := {}
  camelk : AddonSpec := {}
  publicApi : PublicApiConfiguration := {}
deriving DecidableEq, Inhabited

namespace Addons

def enabled (a : Addon) (x : Addons) : Bool :=
  match a with
  | .jaeger => x.jaeger.enabled
  | .ops => x.ops.enabled
  | .todo => x.todo.enabled
  | .knative => x.knative.enabled
  | .dv => x.dv.enabled
  | .camelk => x.camelk.enabled
  | .publicApi => x.publicApi.enabled

def setEnabled (a : Addon) (b : Bool) (x : Addons) : Addons :=
  match a with
  | .jaeger => { x with jaeger.enabled := b }
  | .ops => { x with ops.enabled := b }
  | .todo => { x with todo.enabled := b }
  | .knative => { x with knative.enabled := b }
  | .dv => { x with dv.enabled := b }
  | .camelk => { x with camelk.enabled := b }
  | .publicApi => { x with publicApi.enabled := b }

@[simp] theorem enabled_setEnabled (a a' : Addon) (b : Bool) (x : Addons) :
    (x.setEnabled a b).enabled a' = if a' = a then b else x.enabled a' := by
  cases a <;> cases a' <;> rfl

@[simp] theorem setEnabled_setEnabled (a : Addon) (b b' : Bool) (x : Addons) :
    (x.setEnabled a b).setEnabled a b' = x.setEnabled a b' := by
  cases a <;> rfl

/-- the flag of a named addon before, and the switches with that flag set; an unknown name changes nothing -/
def switch (name : String) (b : Bool) (x : Addons) : Option Bool × Addons :=
  match Addon.ofName? name with
  | some a => (some (x.enabled a), x.setEnabled a b)
  | none => (none, x)

end Addons

/-! ## Codecs -/

def Resources.codec : Codec Resources :=
  .record (.closed "Resources")
    (.cons (.text "memory") .nil)
    (fun x => (x.memory, ()))
    (fun (memory, ()) => ⟨memory⟩)

def AddonSpec.codec : Codec AddonSpec :=
  .record (.closed "AddonSpec")
    (.cons (.flag "enabled") .nil)
    (fun x => (x.enabled, ()))
    (fun (enabled, ()) => ⟨enabled⟩)

def JaegerConfiguration.codec : Codec JaegerConfiguration :=
  .record (.closed "JaegerConfiguration")
    (.cons (.flag "enabled") <|
     .cons (.flag "clientOnly") <|
     .cons (.flag "operatorOnly") <|
     .cons (.text "queryUri") <|
     .cons (.text "collectorUri") <|
     .cons (.text "samplerType") <|
     .cons (.text "samplerParam") .nil)
    (fun x => (x.enabled, x.clientOnly, x.operatorOnly, x.queryUri, x.collectorUri, x.samplerType, x.samplerParam, ()))
    (fun (enabled, clientOnly, operatorOnly, queryUri, collectorUri, samplerType, samplerParam, ()) =>
      ⟨enabled, clientOnly, operatorOnly, queryUri, collectorUri, samplerType, samplerParam⟩)

def DvConfiguration.codec : Codec DvConfiguration :=
  .record (.closed "DvConfiguration")
    (.cons (.flag "enabled") <|
     .cons (.nested "resources" Resources.codec) .nil)
    (fun x => (x.enabled, x.resources, ()))
    (fun (enabled, resources, ()) => ⟨enabled, resources⟩)

def PublicApiConfiguration.codec : Codec PublicApiConfiguration :=
  .record (.closed "PublicApiConfiguration")
    (.cons (.flag "enabled") <|
     .cons (.text "routeHostname" (some "Hostname of the exposed public API.")) <|
     .cons (.flag "disable-sar-check"
        (some ("Let any authenticated user access the API instead of requiring pod\n" ++
          "access in the SAR namespace."))) .nil)
    (fun x => (x.enabled, x.routeHostname, x.disableSarCheck, ()))
    (fun (enabled, routeHostname, disableSarCheck, ()) => ⟨enabled, routeHostname, disableSarCheck⟩)

def Addons.codec : Codec Addons :=
  .record (.closed "AddonsSpec")
    (.cons (.nested Addon.jaeger.name JaegerConfiguration.codec) <|
     .cons (.nested Addon.ops.name AddonSpec.codec) <|
     .cons (.nested Addon.todo.name AddonSpec.codec) <|
     .cons (.nested Addon.knative.name AddonSpec.codec) <|
     .cons (.nested Addon.dv.name DvConfiguration.codec) <|
     .cons (.nested Addon.camelk.name AddonSpec.codec) <|
     .cons (.nested Addon.publicApi.name PublicApiConfiguration.codec) .nil)
    (fun x => (x.jaeger, x.ops, x.todo, x.knative, x.dv, x.camelk, x.publicApi, ()))
    (fun (jaeger, ops, todo, knative, dv, camelk, publicApi, ()) =>
      ⟨jaeger, ops, todo, knative, dv, camelk, publicApi⟩)

end MigrationOperator.Canonical
