import InvariantProtocol.DataBundle
import InvariantProtocol.FieldTree
import InvariantProtocol.GoResult
import InvariantProtocol.GoText
/-! Parsing and migrating a serialised `SchemaBundle` in the four runtimes, with protobuf decoding and
the scalar encoders of the serialisers as parameters. -/
namespace InvariantProtocol.BundleMigration
open GoResult GoText DataSchema WireMessage DataBundle FieldTree

variable {decoded:Decoded} {fields:List Field}
def irVersion : ℕ:=4

def mappingVersion : ℕ:=3

def migrated (bundle:SchemaBundle) : SchemaBundle :=
 { bundle with irVersion:=irVersion,mappingVersion:=mappingVersion }

/-! ### What can be migrated -/

/-- No list in the tree has a fixed length. -/
def Variable (f:Field) : Prop :=
 ∀g,FieldWithin f g → ∀p element length,g.type=.list p element length → length=0

lemma variable_nil : Variable .nil := by
 rw [Variable,forall_within_nil]
 intro p element length ht
 cases ht

lemma variable_mk (a:FieldAttributes) (t:DataType) : Variable (.mk a t) ↔
  (∀p element length,t=.list p element length → length=0) ∧
   ∀f∈t.children,Variable f := by
 rw [Variable,forall_within_mk,Field.type_mk]
 rfl

def Migratable (decoded:Decoded) : Prop :=
 (decoded.bundle.irVersion=4 ∧ decoded.bundle.mappingVersion=3) ∨
  ((decoded.bundle.irVersion=3 ∧ decoded.bundle.mappingVersion=2) ∧
   ¬decoded.message.HasUnknown ∧
   ∀dataset∈decoded.bundle.datasets,∀f∈dataset.fields,Variable f)

/-- Reading a bundle and migrating it: exactly the migratable ones are accepted, the result is
  the same bundle at the current version, and migrating it again returns it. -/
structure Migrates {E R:Type} (decoded:Decoded) (parsed:Except E R)
  (migrate:R → Except E R) (content:R → SchemaBundle) : Prop where
 accepts : (∃r,parsed=.ok r) ↔ Migratable decoded
 content : ∀r,parsed=.ok r →
  content r=⟨4,3,decoded.bundle.sourceDescriptorSha256,decoded.bundle.datasets⟩
 again : ∀r,parsed=.ok r → migrate r=.ok r

def outcome {E R:Type} (content:R → SchemaBundle) : Except E R → Option SchemaBundle
 | .ok r=>some (content r)
 | .error _=>none

lemma Migrates.outcome_eq {E F R Q:Type} {parsed:Except E R}
 {parsed':Except F Q} {migrate:R → Except E R} {migrate':Q → Except F Q}
 {content:R → SchemaBundle} {content':Q → SchemaBundle} (h:Migrates decoded parsed migrate content)
 (h':Migrates decoded parsed' migrate' content') : outcome content parsed=outcome content' parsed' := by
 cases parsed with
 | ok r=>
  obtain ⟨q,hq⟩:=h'.accepts.2 (h.accepts.1 ⟨r,rfl⟩)
  rw [hq,outcome,outcome,h.content r rfl,h'.content q hq]
 | error e=>
  cases parsed' with
  | ok q=>
   obtain ⟨r,hr⟩:=h.accepts.2 (h'.accepts.1 ⟨q,rfl⟩)
   cases hr
  | error e' => rfl

/-! ### Go -/

namespace Go

mutual

def rejectUnknownFields (unsupported path:String) : Message Scalar → Result Unit
 | .mk fields unknown=>do
  rejectIf (unknown≠[]) (.errorf "%s contains fields %s" [.str path,.str unsupported])
  rejectUnknownInFields unsupported path fields

def rejectUnknownInFields (unsupported path:String) : List (Populated Scalar) → Result Unit
 | []=>.ok ()
 | field::rest=>do
  rejectUnknownInField unsupported path field
  rejectUnknownInFields unsupported path rest

def rejectUnknownInField (unsupported path:String) : Populated Scalar → Result Unit
 | .scalar _ _ _=>.ok ()
 | .message _ name value=>rejectUnknownFields unsupported (path++"."++name) value
 | .messages _ name values=>rejectUnknownInMessages unsupported (path++"."++name) 0 values

def rejectUnknownInMessages (unsupported path:String) (index:ℕ) :
  List (Message Scalar) → Result Unit
 | []=>.ok ()
 | value::rest=>do
  rejectUnknownFields unsupported (path++"["++formatInt index++"]") value
  rejectUnknownInMessages unsupported path (index+1) rest
end

mutual

def validateLegacyListShape (path:String) : Field → Result Unit
 | .nil=>.ok ()
 | .mk _ (.struct _ fields)=>validateLegacyChildren path fields
 | .mk _ (.list _ element fixedLength)=>do
  rejectIf (fixedLength≠0)
   (.errorf "SchemaBundle mapping_version 2 field %q contains fixed_length %d, which was introduced in mapping_version %d"
    [.str path,.int fixedLength,.int mappingVersion])
  validateLegacyListShape (path++"[]") element
 | .mk _ (.map _ key value)=>do
  validateLegacyListShape (path++".key") key
  validateLegacyListShape (path++".value") value
 | .mk _ _=>.ok ()

def validateLegacyChildren (path:String) : List Field → Result Unit
 | []=>.ok ()
 | child::rest=>do
  validateLegacyListShape (path++"."++child.attributes.name) child
  validateLegacyChildren path rest
end

def validateLegacyDataset (dataset:DatasetSchema) : Result Unit :=
 loop (fun _ field=>validateLegacyListShape field.attributes.name field) () dataset.fields

def migrateSchemaBundle (decoded:Decoded) : Result Decoded :=
 let bundle:=decoded.bundle
 if bundle.irVersion=irVersion ∧ bundle.mappingVersion=mappingVersion then .ok decoded
 else if bundle.irVersion=3 ∧ bundle.mappingVersion=2 then do
  wrap "migrate SchemaBundle: %w" []
   (rejectUnknownFields "unknown to this migrator" "SchemaBundle" decoded.message)
  loop (fun _=>validateLegacyDataset) () bundle.datasets
  return { decoded with bundle:=migrated bundle }
 else .error (.errorf "unsupported SchemaBundle version pair ir_version=%d mapping_version=%d; expected 3/2 or %d/%d"
  [.int bundle.irVersion,.int bundle.mappingVersion,.int irVersion,.int mappingVersion])

/-- `unmarshalError` stands for the decoder's own error. -/
def parseSchemaBundle (decode:List UInt8 → Option Decoded) (unmarshalError:GoError)
  (encoded:List UInt8) : Result Decoded :=
 match decode encoded with
 | none=>.error (.wrapf "decode SchemaBundle: %w" [] unmarshalError)
 | some decoded=>migrateSchemaBundle decoded
end Go

/-! ### Python, Rust and TypeScript -/

/-- The errors of the three runtimes; they have the same text up to the quoting of a path. -/
inductive DataSchemaError where
 | decode
 | unsupportedVersionPair (irVersion mappingVersion:ℕ)
 | legacyFixedLength (path:String) (length:ℕ)
 | legacyUnknownFields

abbrev Parsed (R:Type):=Except DataSchemaError R

def fieldPath (parent name:String) : String :=
 if parent = "" then name else parent++"."++name

mutual

/-- A child that is not set is skipped by Rust and TypeScript, and read by Python as a field
  without a type. -/
def validateLegacyField (parent:String) : Field → Parsed Unit
 | .nil=>.ok ()
 | .mk a (.struct _ fields)=>validateLegacyFields (fieldPath parent a.name) fields
 | .mk a (.list _ element fixedLength)=>
  let path:=fieldPath parent a.name
  if fixedLength≠0 then .error (.legacyFixedLength path fixedLength)
  else validateLegacyField (path++"[]") element
 | .mk a (.map _ key value)=>do
  let path:=fieldPath parent a.name
  validateLegacyField (path++".key") key
  validateLegacyField (path++".value") value
 | .mk _ _=>.ok ()

def validateLegacyFields (parent:String) : List Field → Parsed Unit
 | []=>.ok ()
 | field::rest=>do
  validateLegacyField parent field
  validateLegacyFields parent rest
end

def validateDatasets (validateFields:String → List Field → Parsed Unit) :
  List DatasetSchema → Parsed Unit
 | []=>.ok ()
 | dataset::rest=>do
  validateFields dataset.name dataset.fields
  validateDatasets validateFields rest

namespace Python

def validateFields : String → List Field → Parsed Unit:=validateLegacyFields

def migrateSchemaBundle (scalarBytes:ℕ → Scalar → List UInt8) (decoded:Decoded) :
  Parsed Decoded :=
 let bundle:=decoded.bundle
 if (bundle.irVersion,bundle.mappingVersion)=(irVersion,mappingVersion) then .ok decoded
 else if (bundle.irVersion,bundle.mappingVersion)≠(3,2) then
  .error (.unsupportedVersionPair bundle.irVersion bundle.mappingVersion)
 else
  let known:=decoded.message.discardUnknown
  if encode scalarBytes known≠encode scalarBytes decoded.message then
   .error .legacyUnknownFields
  else do
   validateDatasets validateFields bundle.datasets
   return { decoded with bundle:=migrated bundle }

def parseSchemaBundle (decode:List UInt8 → Option Decoded)
  (scalarBytes:ℕ → Scalar → List UInt8) (data:List UInt8) : Parsed Decoded :=
 match decode data with
 | none=>.error .decode
 | some decoded=>migrateSchemaBundle scalarBytes decoded
end Python

namespace TypeScript

def validateFields : String → List Field → Parsed Unit:=validateLegacyFields

def migrateSchemaBundle (scalarBytes:ℕ → Scalar → List UInt8) (decoded:Decoded) :
  Parsed Decoded :=
 let bundle:=decoded.bundle
 if bundle.irVersion=irVersion ∧ bundle.mappingVersion=mappingVersion then .ok decoded
 else if bundle.irVersion≠3 ∨ bundle.mappingVersion≠2 then
  .error (.unsupportedVersionPair bundle.irVersion bundle.mappingVersion)
 else
  let withUnknown:=encode scalarBytes decoded.message
  let withoutUnknown:=encode scalarBytes decoded.message.discardUnknown
  if withUnknown.length≠withoutUnknown.length ∨
    (withUnknown.zip withoutUnknown).any (fun pair=>pair.1≠pair.2) then
   .error .legacyUnknownFields
  else do
   validateDatasets validateFields bundle.datasets
   return { decoded with bundle:=migrated bundle }

def parseSchemaBundle (decode:List UInt8 → Option Decoded)
  (scalarBytes:ℕ → Scalar → List UInt8) (data:List UInt8) : Parsed Decoded :=
 match decode data with
 | none=>.error .decode
 | some decoded=>migrateSchemaBundle scalarBytes decoded
end TypeScript

namespace Rust

mutual

def containsUnknownFields : Message Scalar → Bool
 | .mk fields unknown=>!unknown.isEmpty || anyContainsUnknownFields fields

def anyContainsUnknownFields : List (Populated Scalar) → Bool
 | []=>false
 | field::rest=>valueContainsUnknownFields field || anyContainsUnknownFields rest

def valueContainsUnknownFields : Populated Scalar → Bool
 | .scalar _ _ _=>false
 | .message _ _ value=>containsUnknownFields value
 | .messages _ _ values=>listContainsUnknownFields values

def listContainsUnknownFields : List (Message Scalar) → Bool
 | []=>false
 | value::rest=>containsUnknownFields value || listContainsUnknownFields rest
end

/-- The owned value that `prost` decodes has no unknown fields. -/
def migrateSchemaBundle (bundle:SchemaBundle) : Parsed SchemaBundle :=
 if (bundle.irVersion,bundle.mappingVersion)=(irVersion,mappingVersion) then .ok bundle
 else if (bundle.irVersion,bundle.mappingVersion)=(3,2) then do
  validateDatasets validateLegacyFields bundle.datasets
  return migrated bundle
 else .error (.unsupportedVersionPair bundle.irVersion bundle.mappingVersion)

def parseSchemaBundle (decode:List UInt8 → Option Decoded) (data:List UInt8) :
  Parsed SchemaBundle :=
 match decode data with
 | none=>.error .decode
 | some decoded=>
  let bundle:=decoded.bundle
  if (bundle.irVersion,bundle.mappingVersion)=(3,2) ∧
    containsUnknownFields decoded.message then
   .error .legacyUnknownFields
  else migrateSchemaBundle bundle
end Rust

/-! ### The checks decide the same predicates -/

mutual

lemma rejectUnknownFields_ok (unsupported path:String) : (m:Message Scalar) →
 (Go.rejectUnknownFields unsupported path m=.ok () ↔ ¬m.HasUnknown)
 | .mk fields unknown=>by
  have hf:=rejectUnknownInFields_ok unsupported path fields
  rw [Go.rejectUnknownFields,hasUnknown_mk]
  simp only [bind_ok,rejectIf_ok,hf]
  grind

lemma rejectUnknownInFields_ok (unsupported path:String) :
 (fields:List (Populated Scalar)) →
 (Go.rejectUnknownInFields unsupported path fields=.ok () ↔
  ∀field∈fields,∀value∈field.values,¬value.HasUnknown)
 | []=>by simp [Go.rejectUnknownInFields]
 | field::rest=>by
  rw [Go.rejectUnknownInFields,bind_ok,exists_unit_ok,
   rejectUnknownInField_ok unsupported path field,rejectUnknownInFields_ok unsupported path rest,
   List.forall_mem_cons]

lemma rejectUnknownInField_ok (unsupported path:String) : (field:Populated Scalar) →
 (Go.rejectUnknownInField unsupported path field=.ok () ↔
  ∀value∈field.values,¬value.HasUnknown)
 | .scalar _ _ _=>by simp [Go.rejectUnknownInField,Populated.values]
 | .message _ name value=>by
  simp [Go.rejectUnknownInField,Populated.values,
   rejectUnknownFields_ok unsupported (path++"."++name) value]
 | .messages _ name values=>rejectUnknownInMessages_ok unsupported _ 0 values

lemma rejectUnknownInMessages_ok (unsupported path:String) (index:ℕ) :
 (values:List (Message Scalar)) →
 (Go.rejectUnknownInMessages unsupported path index values=.ok () ↔
  ∀value∈values,¬value.HasUnknown)
 | []=>by simp [Go.rejectUnknownInMessages]
 | value::rest=>by
  rw [Go.rejectUnknownInMessages,bind_ok,exists_unit_ok,rejectUnknownFields_ok unsupported _ value,
   rejectUnknownInMessages_ok unsupported path (index+1) rest,List.forall_mem_cons]
end

mutual

lemma containsUnknownFields_iff : (m:Message Scalar) →
 (Rust.containsUnknownFields m=true ↔ m.HasUnknown)
 | .mk fields unknown=>by
  rw [Rust.containsUnknownFields,hasUnknown_mk,Bool.or_eq_true,anyContainsUnknownFields_iff fields]
  simp

lemma anyContainsUnknownFields_iff : (fields:List (Populated Scalar)) →
 (Rust.anyContainsUnknownFields fields=true ↔
  ∃field∈fields,∃value∈field.values,value.HasUnknown)
 | []=>by simp [Rust.anyContainsUnknownFields]
 | field::rest=>by
  rw [Rust.anyContainsUnknownFields,Bool.or_eq_true,valueContainsUnknownFields_iff field,
   anyContainsUnknownFields_iff rest,List.exists_mem_cons_iff]

lemma valueContainsUnknownFields_iff : (field:Populated Scalar) →
 (Rust.valueContainsUnknownFields field=true ↔ ∃value∈field.values,value.HasUnknown)
 | .scalar _ _ _=>by simp [Rust.valueContainsUnknownFields,Populated.values]
 | .message _ _ value=>by
  simp [Rust.valueContainsUnknownFields,Populated.values,containsUnknownFields_iff value]
 | .messages _ _ values=>listContainsUnknownFields_iff values

lemma listContainsUnknownFields_iff : (values:List (Message Scalar)) →
 (Rust.listContainsUnknownFields values=true ↔ ∃value∈values,value.HasUnknown)
 | []=>by simp [Rust.listContainsUnknownFields]
 | value::rest=>by
  rw [Rust.listContainsUnknownFields,Bool.or_eq_true,containsUnknownFields_iff value,
   listContainsUnknownFields_iff rest,List.exists_mem_cons_iff]
end

lemma validateLegacyChildren_ok
 (h:∀f∈fields,∀path,Go.validateLegacyListShape path f=.ok () ↔ Variable f) (path:String) :
 Go.validateLegacyChildren path fields=.ok () ↔ ∀f∈fields,Variable f := by
 induction fields with
 | nil=>simp [Go.validateLegacyChildren]
 | cons f rest ih=>
  obtain ⟨hf,hr⟩:=List.forall_mem_cons.1 h
  rw [Go.validateLegacyChildren,bind_ok,exists_unit_ok,hf,ih hr,List.forall_mem_cons]

lemma validateLegacyListShape_ok (field:Field) :
 ∀path,Go.validateLegacyListShape path field=.ok () ↔ Variable field := by
 induction field using Field.tree_induction with
 | hnil=>simp [Go.validateLegacyListShape,variable_nil]
 | hmk a t ih=>
  intro path
  rw [variable_mk]
  cases t with
  | struct p fields=>
   have hf:=validateLegacyChildren_ok (show ∀f∈fields,_ from ih) path
   simp [Go.validateLegacyListShape,hf,DataType.children]
  | list p element length=>
   simp [Go.validateLegacyListShape,ih element (by simp [DataType.children]),
    DataType.children]
  | map p key value=>
   simp [Go.validateLegacyListShape,ih key (by simp [DataType.children]),
    ih value (by simp [DataType.children]),DataType.children]
  | _=>simp [Go.validateLegacyListShape,DataType.children]

lemma validateLegacyFields_ok_of
 (h:∀f∈fields,∀parent,validateLegacyField parent f=.ok () ↔ Variable f) (parent:String) :
 validateLegacyFields parent fields=.ok () ↔ ∀f∈fields,Variable f := by
 induction fields with
 | nil=>simp [validateLegacyFields]
 | cons f rest ih=>
  obtain ⟨hf,hr⟩:=List.forall_mem_cons.1 h
  rw [validateLegacyFields,bind_ok,exists_unit_ok,hf,ih hr,List.forall_mem_cons]

lemma validateLegacyField_ok (field:Field) :
 ∀parent,validateLegacyField parent field=.ok () ↔ Variable field := by
 induction field using Field.tree_induction with
 | hnil=>simp [validateLegacyField,variable_nil]
 | hmk a t ih=>
  intro parent
  rw [variable_mk]
  cases t with
  | struct p fields=>
   have hf:=validateLegacyFields_ok_of (show ∀f∈fields,_ from ih)
    (fieldPath parent a.name)
   simp [validateLegacyField,hf,DataType.children]
  | list p element length=>
   by_cases hl : length=0
   · simp [validateLegacyField,hl,ih element (by simp [DataType.children]),
      DataType.children]
   · simp [validateLegacyField,hl]
  | map p key value=>
   simp [validateLegacyField,ih key (by simp [DataType.children]),
    ih value (by simp [DataType.children]),DataType.children]
  | _=>simp [validateLegacyField,DataType.children]

lemma validateLegacyDataset_ok (fields:List Field) :
 loop (fun _ field=>Go.validateLegacyListShape field.attributes.name field) () fields =
   .ok () ↔ ∀f∈fields,Variable f := by
 induction fields with
 | nil=>simp
 | cons f rest ih=>
  rw [loop_cons,exists_unit_ok,validateLegacyListShape_ok,ih,List.forall_mem_cons]

lemma loop_validateLegacyDataset (datasets:List DatasetSchema) :
 loop (fun _=>Go.validateLegacyDataset) () datasets=.ok () ↔
  ∀dataset∈datasets,∀f∈dataset.fields,Variable f := by
 induction datasets with
 | nil=>simp
 | cons dataset rest ih=>
  rw [loop_cons,exists_unit_ok,ih,List.forall_mem_cons,Go.validateLegacyDataset,
   validateLegacyDataset_ok]

lemma validateDatasets_ok (datasets:List DatasetSchema) :
 validateDatasets validateLegacyFields datasets=.ok () ↔
  ∀dataset∈datasets,∀f∈dataset.fields,Variable f := by
 induction datasets with
 | nil=>simp [validateDatasets]
 | cons dataset rest ih=>
  rw [validateDatasets,bind_ok,exists_unit_ok,ih,List.forall_mem_cons,
   validateLegacyFields_ok_of fun f _=>validateLegacyField_ok f]

lemma bytes_differ_iff (xs ys:List UInt8) :
 (xs.length≠ys.length ∨ (xs.zip ys).any (fun pair=>pair.1≠pair.2)=true) ↔ ys≠xs := by
 induction xs generalizing ys with
 | nil=>cases ys <;> simp
 | cons x xs ih=>
  cases ys with
  | nil=>simp
  | cons y ys=>
   have h:=ih ys
   grind

/-! ### The four migrators -/

def upgraded (decoded:Decoded) : Decoded:={ decoded with bundle:=migrated decoded.bundle }

lemma migrated_current {bundle:SchemaBundle} (h:bundle.irVersion=4 ∧ bundle.mappingVersion=3) :
 migrated bundle=bundle := by
 obtain ⟨ir,mapping,digest,datasets⟩:=bundle
 obtain ⟨rfl,rfl⟩:=h
 rfl

lemma migratable_current (h:decoded.bundle.irVersion=4 ∧ decoded.bundle.mappingVersion=3) :
 Migratable decoded ∧ upgraded decoded=decoded := by
 refine ⟨.inl h,?_⟩
 rw [upgraded,migrated_current h]

lemma migratable_legacy (h:decoded.bundle.irVersion=3 ∧ decoded.bundle.mappingVersion=2) :
 Migratable decoded ↔ ¬decoded.message.HasUnknown ∧
  ∀dataset∈decoded.bundle.datasets,∀f∈dataset.fields,Variable f := by
 simp [Migratable,h]

lemma not_migratable (hc:¬(decoded.bundle.irVersion=4 ∧ decoded.bundle.mappingVersion=3))
 (hl:¬(decoded.bundle.irVersion=3 ∧ decoded.bundle.mappingVersion=2)) : ¬Migratable decoded := by
 simp [Migratable,hc,hl]

lemma Go.migrateSchemaBundle_ok (decoded r:Decoded) :
 Go.migrateSchemaBundle decoded=.ok r ↔ Migratable decoded ∧ r=upgraded decoded := by
 rw [Go.migrateSchemaBundle,irVersion,mappingVersion]
 by_cases hc : decoded.bundle.irVersion=4 ∧ decoded.bundle.mappingVersion=3
 · obtain ⟨hok,hs⟩:=migratable_current hc
   simp [hc,hok,hs,eq_comm]
 · by_cases hl : decoded.bundle.irVersion=3 ∧ decoded.bundle.mappingVersion=2
   · rw [migratable_legacy hl,if_neg hc,if_pos hl]
     simp only [bind_ok,wrap_ok,exists_unit_ok,rejectUnknownFields_ok,
      loop_validateLegacyDataset,pure_ok,and_assoc]
     rw [upgraded,eq_comm]
   · simp [hc,hl,not_migratable hc hl]

lemma Python.migrateSchemaBundle_ok (scalarBytes:ℕ → Scalar → List UInt8) (decoded r:Decoded) :
 Python.migrateSchemaBundle scalarBytes decoded=.ok r ↔
  Migratable decoded ∧ r=upgraded decoded := by
 have hen:=encode_discardUnknown_eq_iff scalarBytes decoded.message
 rw [Python.migrateSchemaBundle,irVersion,mappingVersion,Python.validateFields]
 simp only [Prod.mk.injEq,ne_eq]
 by_cases hc : decoded.bundle.irVersion=4 ∧ decoded.bundle.mappingVersion=3
 · obtain ⟨hok,hs⟩:=migratable_current hc
   simp [hc,hok,hs,eq_comm]
 · by_cases hl : decoded.bundle.irVersion=3 ∧ decoded.bundle.mappingVersion=2
   · rw [migratable_legacy hl,if_neg hc,if_neg (not_not.2 hl)]
     by_cases hu : decoded.message.HasUnknown
     · rw [if_pos fun heq=>hen.1 heq hu]
       simp [hu]
     · rw [if_neg (not_not.2 (hen.2 hu))]
       simp only [bind_ok,exists_unit_ok,validateDatasets_ok,pure_ok,hu,
        not_false_eq_true,true_and]
       rw [upgraded,eq_comm]
   · simp [hc,hl,not_migratable hc hl]

lemma TypeScript.migrateSchemaBundle_eq (scalarBytes:ℕ → Scalar → List UInt8) (decoded:Decoded) :
 TypeScript.migrateSchemaBundle scalarBytes decoded =
  Python.migrateSchemaBundle scalarBytes decoded := by
 simp only [TypeScript.migrateSchemaBundle,Python.migrateSchemaBundle,bytes_differ_iff,Prod.mk.injEq,
  ne_eq,not_and_or,TypeScript.validateFields,Python.validateFields]

lemma TypeScript.migrateSchemaBundle_ok (scalarBytes:ℕ → Scalar → List UInt8) (decoded r:Decoded) :
 TypeScript.migrateSchemaBundle scalarBytes decoded=.ok r ↔
  Migratable decoded ∧ r=upgraded decoded := by
 rw [TypeScript.migrateSchemaBundle_eq]
 exact Python.migrateSchemaBundle_ok scalarBytes decoded r

lemma Rust.migrateSchemaBundle_migrated (bundle:SchemaBundle) :
 Rust.migrateSchemaBundle (migrated bundle)=.ok (migrated bundle) := by
 simp [Rust.migrateSchemaBundle,migrated]

lemma Rust.parseSchemaBundle_ok {decode:List UInt8 → Option Decoded} {data:List UInt8}
 (h:decode data=some decoded) (r:SchemaBundle) : Rust.parseSchemaBundle decode data=.ok r ↔
  Migratable decoded ∧ r=migrated decoded.bundle := by
 rw [Rust.parseSchemaBundle,h]
 have hcn:=containsUnknownFields_iff decoded.message
 simp only [Rust.migrateSchemaBundle,irVersion,mappingVersion,Prod.mk.injEq]
 by_cases hc : decoded.bundle.irVersion=4 ∧ decoded.bundle.mappingVersion=3
 · rw [migrated_current hc,if_neg (by simp [hc]),if_pos hc,
    Except.ok.injEq,eq_comm]
   exact (and_iff_right (migratable_current hc).1).symm
 · by_cases hl : decoded.bundle.irVersion=3 ∧ decoded.bundle.mappingVersion=2
   · rw [migratable_legacy hl]
     by_cases hu : decoded.message.HasUnknown
     · simp [hl,hu,hcn.2 hu]
     · rw [if_neg fun hr=>hu (hcn.1 hr.2),if_neg hc,if_pos hl]
       simp only [bind_ok,exists_unit_ok,validateDatasets_ok,pure_ok,hu,
        not_false_eq_true,true_and]
       rw [eq_comm]
   · simp [hc,hl,not_migratable hc hl]

lemma migrates_of_ok {E:Type} {migrate:Decoded → Except E Decoded}
 (h:∀decoded r,migrate decoded=.ok r ↔ Migratable decoded ∧ r=upgraded decoded)
 (decoded:Decoded) : Migrates decoded (migrate decoded) migrate (·.bundle) where
 accepts:=by simp [h]
 content r hr:=congrArg (·.bundle) ((h _ _).1 hr).2
 again r hr:=by
  obtain ⟨-,rfl⟩:=(h _ _).1 hr
  exact (h _ _).2 ⟨(migratable_current ⟨rfl,rfl⟩).1,(migratable_current ⟨rfl,rfl⟩).2.symm⟩

/-- Every runtime accepts the same serialised bundles, migrates them to the same content, and
  leaves a migrated bundle alone. -/
theorem bundles_migrate_alike (decode:List UInt8 → Option Decoded) (unmarshalError:GoError)
  (pythonBytes typeScriptBytes:ℕ → Scalar → List UInt8) (data:List UInt8) (decoded:Decoded)
  (h:decode data=some decoded) :
  Migrates decoded (Go.parseSchemaBundle decode unmarshalError data) Go.migrateSchemaBundle (·.bundle) ∧
   Migrates decoded (Python.parseSchemaBundle decode pythonBytes data)
    (Python.migrateSchemaBundle pythonBytes) (·.bundle) ∧
   Migrates decoded (Rust.parseSchemaBundle decode data) Rust.migrateSchemaBundle id ∧
   Migrates decoded (TypeScript.parseSchemaBundle decode typeScriptBytes data)
    (TypeScript.migrateSchemaBundle typeScriptBytes) (·.bundle) ∧
   outcome (·.bundle) (Go.parseSchemaBundle decode unmarshalError data) =
    outcome (·.bundle) (Python.parseSchemaBundle decode pythonBytes data) ∧
   outcome (·.bundle) (Go.parseSchemaBundle decode unmarshalError data) =
    outcome id (Rust.parseSchemaBundle decode data) ∧
   outcome (·.bundle) (Go.parseSchemaBundle decode unmarshalError data) =
    outcome (·.bundle) (TypeScript.parseSchemaBundle decode typeScriptBytes data) := by
 have hgo:Migrates decoded (Go.parseSchemaBundle decode unmarshalError data)
   Go.migrateSchemaBundle (·.bundle) := by
  rw [Go.parseSchemaBundle,h]
  exact migrates_of_ok Go.migrateSchemaBundle_ok decoded
 have hp:Migrates decoded (Python.parseSchemaBundle decode pythonBytes data)
   (Python.migrateSchemaBundle pythonBytes) (·.bundle) := by
  rw [Python.parseSchemaBundle,h]
  exact migrates_of_ok (Python.migrateSchemaBundle_ok pythonBytes) decoded
 have hrs:Migrates decoded (Rust.parseSchemaBundle decode data)
   Rust.migrateSchemaBundle id := by
  refine ⟨by simp [Rust.parseSchemaBundle_ok h],fun r hr=>?_,fun r hr=>?_⟩
  · exact ((Rust.parseSchemaBundle_ok h r).1 hr).2
  · rw [((Rust.parseSchemaBundle_ok h r).1 hr).2]
    exact Rust.migrateSchemaBundle_migrated decoded.bundle
 have ht:Migrates decoded (TypeScript.parseSchemaBundle decode typeScriptBytes data)
   (TypeScript.migrateSchemaBundle typeScriptBytes) (·.bundle) := by
  rw [TypeScript.parseSchemaBundle,h]
  exact migrates_of_ok (TypeScript.migrateSchemaBundle_ok typeScriptBytes) decoded
 exact ⟨hgo,hp,hrs,ht,hgo.outcome_eq hp,hgo.outcome_eq hrs,
  hgo.outcome_eq ht⟩

def legacyList : Decoded where
 bundle:=⟨3,2,[],[⟨"shop.Order","shop_order","",[.mk
  ⟨"shop.Order.tags",[1],"tags",1,.repeated,false,"","",.protoField,false,"","tags",
   "tags"⟩
  (.list "" (.mk
   ⟨"shop.Order.tags[]",[1],"element",2,.notApplicable,false,"","",.listElement,false,
    "","",""⟩ (.primitive "" .string)) 0)],2,[]⟩]⟩
 unknown:=fun _=>[]

theorem legacyList_migrates : Migratable legacyList ∧
   outcome id (Rust.parseSchemaBundle (fun _=>some legacyList) []) =
    some (migrated legacyList.bundle) := by
 obtain ⟨hgo,-,-,-,-,hr,-⟩:=bundles_migrate_alike (fun _=>some legacyList) .exhausted
  (fun _ _=>[]) (fun _ _=>[]) [] legacyList rfl
 have hp:Go.parseSchemaBundle (fun _=>some legacyList) .exhausted [] =
   .ok (upgraded legacyList):=rfl
 refine ⟨hgo.accepts.1 ⟨_,hp⟩,?_⟩
 rw [← hr,hp]
 rfl
end InvariantProtocol.BundleMigration
