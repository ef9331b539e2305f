/-
Metadata of cluster objects.

Every field is optional and unknown ones are passed over; null counts as absent. An object's name is the one it has or,
failing that, the one its name is to be generated from.
-/
import MigrationOperator.Codec.Record
import MigrationOperator.Resource.Timestamp

namespace MigrationOperator

/-- an object that owns this one -/
structure OwnerReference where
  apiVersion : String
  blockOwnerDeletion : Option Bool
  controller : Option Bool
  kind : String
  name : String
  uid : String
deriving DecidableEq

/-- the fields of an object that one writer manages -/
structure ManagedFields where
  apiVersion : Option String
  fieldsType : Option String
  fields : Option Json
  manager : Option String
  operation : Option String
  subresource : Option String
  time : Option Timestamp

structure Metadata where
  annotations : Option (StringMap String) := none
  creationTimestamp : Option Timestamp := none
  deletionGracePeriodSeconds : Option Int64 := none
  deletionTimestamp : Option Timestamp := none
  finalizers : Option (List String) := none
  generateName : Option String := none
  generation : Option Int64 := none
  labels : Option (StringMap String) := none
  managedFields : Option (List ManagedFields) := none
  name : Option String := none
  namespaceName : Option String := none
  ownerReferences : Option (List OwnerReference) := none
  resourceVersion : Option String := none
  selfLink : Option String := none
  uid : Option String := none

instance : Inhabited Metadata := ⟨{}⟩

/-- records of the platform: objects only, unknown fields passed over, the last of repeated fields counts -/
def Style.platform (title : String) : Style := { title, repeats := true, listed := false }

/-- always written; null or left out reads as empty -/
def Column.always (name : String) : Column String :=
  { name, codec := Codec.nullable .text |>.imap (·.getD "") some, absent := some "" }

def OwnerReference.codec : Codec OwnerReference :=
  .record (.platform "OwnerReference")
    (.cons (.always "apiVersion") <|
     .cons (.optional "blockOwnerDeletion" .flag) <|
     .cons (.optional "controller" .flag) <|
     .cons (.always "kind") <|
     .cons (.always "name") <|
     .cons (.always "uid") .nil)
    (fun x => (x.apiVersion, x.blockOwnerDeletion, x.controller, x.kind, x.name, x.uid, ()))
    (fun (apiVersion, blockOwnerDeletion, controller, kind, name, uid, ()) =>
      ⟨apiVersion, blockOwnerDeletion, controller, kind, name, uid⟩)

def ManagedFields.codec : Codec ManagedFields :=
  .record (.platform "ManagedFieldsEntry")
    (.cons (.optional "apiVersion" .text) <|
     .cons (.optional "fieldsType" .text) <|
     .cons (.optional "fieldsV1" .value) <|
     .cons (.optional "manager" .text) <|
     .cons (.optional "operation" .text) <|
     .cons (.optional "subresource" .text) <|
     .cons (.optional "time" Timestamp.codec) .nil)
    (fun x => (x.apiVersion, x.fieldsType, x.fields, x.manager, x.operation, x.subresource, x.time, ()))
    (fun (apiVersion, fieldsType, fields, manager, operation, subresource, time, ()) =>
      ⟨apiVersion, fieldsType, fields, manager, operation, subresource, time⟩)

namespace Metadata

def codec : Codec Metadata :=
  .record (.platform "ObjectMeta")
    (.cons (.optional "annotations" (.table .text)) <|
     .cons (.optional "creationTimestamp" Timestamp.codec) <|
     .cons (.optional "deletionGracePeriodSeconds" .int64) <|
     .cons (.optional "deletionTimestamp" Timestamp.codec) <|
     .cons (.optional "finalizers" (.list .text)) <|
     .cons (.optional "generateName" .text) <|
     .cons (.optional "generation" .int64) <|
     .cons (.optional "labels" (.table .text)) <|
     .cons (.optional "managedFields" (.list ManagedFields.codec)) <|
     .cons (.optional "name" .text) <|
     .cons (.optional "namespace" .text) <|
     .cons (.optional "ownerReferences" (.list OwnerReference.codec)) <|
     .cons (.optional "resourceVersion" .text) <|
     .cons (.optional "selfLink" .text) <|
     .cons (.optional "uid" .text) .nil)
    (fun x => (x.annotations, x.creationTimestamp, x.deletionGracePeriodSeconds, x.deletionTimestamp, x.finalizers,
      x.generateName, x.generation, x.labels, x.managedFields, x.name, x.namespaceName, x.ownerReferences,
      x.resourceVersion, x.selfLink, x.uid, ()))
    (fun (annotations, creationTimestamp, deletionGracePeriodSeconds, deletionTimestamp, finalizers, generateName,
        generation, labels, managedFields, name, namespaceName, ownerReferences, resourceVersion, selfLink, uid, ()) =>
      ⟨annotations, creationTimestamp, deletionGracePeriodSeconds, deletionTimestamp, finalizers, generateName,
        generation, labels, managedFields, name, namespaceName, ownerReferences, resourceVersion, selfLink, uid⟩)

/-- the name of the object: its own, or the stem of the one to be generated, or empty -/
def displayName (m : Metadata) : String := (m.name.or m.generateName).getD ""

end Metadata

/-- metadata of a list of objects -/
structure ListMetadata where
  continueToken : Option String
  remainingItemCount : Option Int64
  resourceVersion : Option String
  selfLink : Option String
deriving DecidableEq, Inhabited

def ListMetadata.codec : Codec ListMetadata :=
  .record (.platform "ListMeta")
    (.cons (.optional "continue" .text) <|
     .cons (.optional "remainingItemCount" .int64) <|
     .cons (.optional "resourceVersion" .text) <|
     .cons (.optional "selfLink" .text) .nil)
    (fun x => (x.continueToken, x.remainingItemCount, x.resourceVersion, x.selfLink, ()))
    (fun (continueToken, remainingItemCount, resourceVersion, selfLink, ()) =>
      ⟨continueToken, remainingItemCount, resourceVersion, selfLink⟩)

end MigrationOperator
