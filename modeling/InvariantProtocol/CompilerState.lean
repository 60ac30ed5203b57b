import InvariantProtocol.DataNames
import InvariantProtocol.DataEvolution
import Mathlib.Data.List.AList
namespace InvariantProtocol.CompilerState
open GoResult GoText DataSchema DataIdentity DataNames DataEvolution ProtoDescriptor

abbrev GoMap (κ ν:Type):=AList fun _ : κ=>ν

def maxStableID : ℤ:=2147483447

/-- What a compilation only reads. Names are owned per scope and name. -/
structure CompilerHistory where
 previousActive : GoMap String ℤ:=∅
 previousFields : GoMap String Field:=∅
 retired : GoMap String RetiredField:=∅
 historicalNames : GoMap (String×String) String:=∅
 firstTopLevelIDs : GoMap String ℤ:=∅

structure DatasetCompiler extends CompilerHistory where
 currentActive : GoMap String ℤ:=∅
 currentContainers : GoMap String MessageDescriptor
 reservedIDs : GoMap ℤ String:=∅
 lastID : ℤ:=0

def validateStableID (id:ℤ) : Result Unit :=
 rejectIf (id<1 ∨ id > maxStableID)
  (.errorf "stable_id %d is outside 1..%d" [.int id,.int maxStableID])

def registerHistoricalName (c:DatasetCompiler) (identity name:String) :
  Result DatasetCompiler:=do
 let scope:=parentCompilerIdentity identity
 let owner:=c.historicalNames.lookup (scope,name)
 rejectIf (owner.any (· ≠ identity))
  (.errorf "previous storage name %q in logical scope %q is shared by compiler identities %q and %q"
   [.str name,.str scope,.str (owner.getD ""),.str identity])
 return { c with historicalNames:=c.historicalNames.insert (scope,name) identity }

def historicalNameOwner (h:CompilerHistory) (scope name:String) : String :=
 (h.historicalNames.lookup (scope,name)).getD ""

def registerRetired (c:DatasetCompiler) (retired:RetiredField) : Result DatasetCompiler:=do
 rejectIf (retired.identity = "") (.errorf "previous retired field has an empty identity" [])
 wrap "previous retired field %q: %w" [.str retired.identity] (validateStableID retired.stableId)
 rejectIf (retired.identity∈c.retired)
  (.errorf "previous retired identity %q is duplicated" [.str retired.identity])
 rejectIf (retired.stableId∈c.reservedIDs)
  (.errorf "previous stable_id %d is shared by %q and %q" [.int retired.stableId,
   .str ((c.reservedIDs.lookup retired.stableId).getD ""),.str retired.identity])
 wrap "previous retired field %q: %w" [.str retired.identity]
  (validateCompilerOwnedName retired.identity retired.protoFullName retired.name
   retired.storageNameSource)
 let c ← registerHistoricalName c retired.identity retired.name
 return { c with
  retired:=c.retired.insert retired.identity retired
  reservedIDs:=c.reservedIDs.insert retired.stableId retired.identity }

def SyntheticRole.text : SyntheticRole → String
 | .unspecified=>"SYNTHETIC_ROLE_UNSPECIFIED"
 | .protoField=>"SYNTHETIC_ROLE_PROTO_FIELD"
 | .listElement=>"SYNTHETIC_ROLE_LIST_ELEMENT"
 | .mapKey=>"SYNTHETIC_ROLE_MAP_KEY"
 | .mapValue=>"SYNTHETIC_ROLE_MAP_VALUE"
 | .unrecognized number=>formatInt number

/-- A collection child repeats its parent's number path. -/
def syntheticIdentity (child segment:String) (a:FieldAttributes) (parentPath:List UInt32)
  (parentIdentity:String) : Result String:=do
 rejectIf (a.protoNumberPath≠parentPath)
  (.errorf ("previous "++child++" %q has invalid protobuf number path %v")
   [.str a.protoFullName,.numbers a.protoNumberPath])
 return appendIdentity parentIdentity segment

def previousIdentity (a:FieldAttributes) (parentPath:List UInt32) (parentIdentity:String)
  (expectedRole:SyntheticRole) : Result String :=
 match expectedRole with
 | .protoField=>do
  rejectIf (a.protoNumberPath.length≠parentPath.length+1 ∨
    a.protoNumberPath.take parentPath.length≠parentPath)
   (.errorf "previous field %q has invalid protobuf number path %v"
    [.str a.protoFullName,.numbers a.protoNumberPath])
  return appendIdentity parentIdentity
   (fieldIdentitySegment (a.protoNumberPath.getLastD 0).toInt32)
 | .listElement=>syntheticIdentity "list element" "list:element" a parentPath parentIdentity
 | .mapKey=>syntheticIdentity "map key" "map:key" a parentPath parentIdentity
 | .mapValue=>syntheticIdentity "map value" "map:value" a parentPath parentIdentity
 | _=>.error (.errorf "previous field %q has an invalid synthetic role" [.str a.protoFullName])

def registerPrevious (c:DatasetCompiler) (identity:String) (field:Field) :
  Result DatasetCompiler:=do
 let a:=field.attributes
 wrap "previous field %q: %w" [.str a.protoFullName] (validateStableID a.stableId)
 rejectIf (identity∈c.retired)
  (.errorf "previous identity %q is both active and retired" [.str identity])
 rejectIf (identity∈c.previousActive)
  (.errorf "previous active identity %q is duplicated" [.str identity])
 rejectIf (a.stableId∈c.reservedIDs)
  (.errorf "previous stable_id %d is shared by %q and %q" [.int a.stableId,
   .str ((c.reservedIDs.lookup a.stableId).getD ""),.str identity])
 wrap "previous field %q: %w" [.str a.protoFullName]
  (validateCompilerOwnedName identity a.protoFullName a.name a.storageNameSource)
 let c ← registerHistoricalName c identity a.name
 return { c with
  previousActive:=c.previousActive.insert identity a.stableId
  previousFields:=c.previousFields.insert identity field
  reservedIDs:=c.reservedIDs.insert a.stableId identity }

mutual

def indexPreviousField : Field → List UInt32 → String → SyntheticRole → DatasetCompiler →
  Result DatasetCompiler
 | .nil,_,_,_,_=>.error (.errorf "previous schema contains a nil field" [])
 | .mk a t,parentPath,parentIdentity,expectedRole,c=>do
  rejectIf (a.syntheticRole≠expectedRole)
   (.errorf "previous field %q has role %s, expected %s" [.str a.protoFullName,
    .str (SyntheticRole.text a.syntheticRole),.str (SyntheticRole.text expectedRole)])
  let identity ← previousIdentity a parentPath parentIdentity expectedRole
  let c ← registerPrevious c identity (.mk a t)
  indexPreviousType t a identity c

def indexPreviousType : DataType → FieldAttributes → String → DatasetCompiler →
  Result DatasetCompiler
 | .nil,a,_,_=>
  .error (.errorf "previous field %q has no logical type" [.str a.protoFullName])
 | .struct _ fields,a,identity,c=>indexPreviousFields fields a.protoNumberPath identity c
 | .list _ element _,a,identity,c=>do
  rejectIf element.isNil
   (.errorf "previous list field %q has no element" [.str a.protoFullName])
  indexPreviousField element a.protoNumberPath identity .listElement c
 | .map _ key value,a,identity,c=>do
  rejectIf (key.isNil ∨ value.isNil)
   (.errorf "previous map field %q must have a key and value" [.str a.protoFullName])
  let c ← indexPreviousField key a.protoNumberPath identity .mapKey c
  indexPreviousField value a.protoNumberPath identity .mapValue c
 | _,_,_,c=>.ok c

def indexPreviousFields : List Field → List UInt32 → String → DatasetCompiler →
  Result DatasetCompiler
 | [],_,_,c=>.ok c
 | field::rest,path,identity,c=>do
  let c ← indexPreviousField field path identity .protoField c
  indexPreviousFields rest path identity c
end

def highestID (ids:List ℤ) : ℤ:=ids.foldl (fun highest id=>if id > highest then id else highest) 0

def newDatasetCompiler (md:MessageDescriptor) (previous:Option DatasetSchema) :
  Result DatasetCompiler :=
 let c : DatasetCompiler:={ currentContainers:=AList.singleton "" md }
 match previous with
 | none=>.ok c
 | some previous=>do
  rejectIf (previous.sourceMessage≠md.fullName)
   (.errorf "previous schema is for %q, not %q" [.str previous.sourceMessage,.str md.fullName])
  let canonicalDatasetName:=storageName previous.sourceMessage
  rejectIf (previous.name≠canonicalDatasetName)
   (.errorf ("previous dataset storage name %q is not the canonical name %q derived from " ++
    "source_message %q; generated SchemaBundle names are compiler-owned")
    [.str previous.name,.str canonicalDatasetName,.str previous.sourceMessage])
  rejectIf (previous.lastFieldId<0 ∨ previous.lastFieldId > maxStableID)
   (.errorf "previous last_field_id %d is outside 0..%d"
    [.int previous.lastFieldId,.int maxStableID])
  let c ← loop registerRetired { c with lastID:=previous.lastFieldId } previous.retiredFields
  let c ← indexPreviousFields previous.fields [] "" c
  rejectIf (c.lastID≠highestID c.reservedIDs.keys)
   (.errorf "previous last_field_id is %d, but highest allocated stable_id is %d"
    [.int c.lastID,.int (highestID c.reservedIDs.keys)])
  return c

def allocate (c:DatasetCompiler) (identity:String) : Result (ℤ×DatasetCompiler) :=
 if identity∈c.currentActive then
  .error (.errorf "compiler identity %q occurs more than once" [.str identity])
 else match c.retired.lookup identity with
 | some retired=>
  .error (.errorf "compiler identity %q reuses retired stable_id %d"
   [.str identity,.int retired.stableId])
 | none=>match c.previousActive.lookup identity with
 | some id=>.ok (id,{ c with currentActive:=c.currentActive.insert identity id })
 | none=>match c.firstTopLevelIDs.lookup identity with
 | some id=>.ok (id,{ c with currentActive:=c.currentActive.insert identity id })
 | none=>
  if c.lastID=maxStableID then
   .error (.errorf "cannot allocate stable_id beyond %d" [.int maxStableID])
  else
   let id:=c.lastID+1
   match c.reservedIDs.lookup id with
   | some owner=>
    .error (.errorf "stable_id %d is already reserved by %q" [.int id,.str owner])
   | none=>.ok (id,{ c with
     lastID:=id
     reservedIDs:=c.reservedIDs.insert id identity
     currentActive:=c.currentActive.insert identity id })

def validateEvolution (h:CompilerHistory) (identity:String) (current:Field) : Result Unit :=
 match h.previousFields.lookup identity with
 | none=>.ok ()
 | some previous=>validateChange previous current
end InvariantProtocol.CompilerState
