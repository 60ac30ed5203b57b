import InvariantProtocol.BundleMigration
import InvariantProtocol.DataCompiler
import InvariantProtocol.Reordering
/-! `CompileDescriptorBytes`. Decoding and linking are left to the protobuf library; what it alone
reads of a field declaration is of type `φ`, the rest of type `δ`. -/
namespace InvariantProtocol.BundleCompiler
open GoResult GoText DataSchema DataBundle BundleMigration ProtoDescriptor CompilerState
open DataCompiler Reordering

inductive DeclaredType where
 | message
 | other (number:ℕ)
 deriving DecidableEq

structure ExtensionDeclaration where
 name : String
 number : ℤ
 extendee : String
 type : DeclaredType
 typeName : String
 label : Cardinality

/-- A `DescriptorProto` without its nested messages. -/
structure MessageDeclaration (δ φ:Type) where
 name : String
 fields : List φ
 extensions : List ExtensionDeclaration
 rest : δ

structure FileDeclaration (δ φ:Type) where
 package : String
 messages : List (Reordering.Tree (MessageDeclaration δ φ))
 extensions : List ExtensionDeclaration
 rest : δ

abbrev Image (δ φ:Type):=List (FileDeclaration δ φ)

/-! ### The custom option numbers -/

def optionNumber : ℤ:=51974

def allowed (extendee:String) : Option (String×String) :=
 if extendee = ".google.protobuf.MessageOptions" then
  some ("invariant.data.v1.dataset",".invariant.data.v1.DatasetOptions")
 else if extendee = ".google.protobuf.FieldOptions" then
  some ("invariant.data.v1.field",".invariant.data.v1.FieldOptions")
 else none

def validateExtension (scope:String) (extension:ExtensionDeclaration) : Result Unit :=
 if extension.number≠optionNumber then .ok ()
 else match allowed extension.extendee with
 | none=>.ok ()
 | some (expectedName,typeName)=>do
  let name:=trimStart "." (scope++"."++extension.name)
  rejectIf (name≠expectedName)
   (.errorf ("custom option number %d for %s is assigned to %q by Invariant but also declared " ++
    "by %q") [.int optionNumber,.str (trimStart "." extension.extendee),.str expectedName,
     .str name])
  rejectIf (extension.type≠.message ∨ extension.typeName≠typeName ∨
    extension.label≠.optional)
   (.errorf "invariant custom option %q has an unexpected declaration" [.str expectedName])

def validateExtensions (scope:String) (extensions:List ExtensionDeclaration) : Result Unit :=
 loop (fun _=>validateExtension scope) () extensions

section
variable {δ φ:Type}

mutual

def visitMessage (scope:String) : Reordering.Tree (MessageDeclaration δ φ) → Result Unit
 | .node message nested=>do
  let messageScope:=trimStart "." (scope++"."++message.name)
  validateExtensions messageScope message.extensions
  visitMessages messageScope nested

def visitMessages (scope:String) : List (Reordering.Tree (MessageDeclaration δ φ)) → Result Unit
 | []=>.ok ()
 | message::rest=>do
  visitMessage scope message
  visitMessages scope rest
end

def visitExtensions (scope:String) (messages:List (Reordering.Tree (MessageDeclaration δ φ)))
  (extensions:List ExtensionDeclaration) : Result Unit:=do
 validateExtensions scope extensions
 visitMessages scope messages

def validateAnnotationOptionNumbers (files:Image δ φ) : Result Unit :=
 loop (fun _ file=>visitExtensions file.package file.messages file.extensions) () files
end

/-! ### Linked descriptors -/

/-- `unknown`: the option has fields this compiler does not know. -/
structure DatasetOptions where
 unknown : Bool:=false

structure LinkedMessage where
 descriptor : MessageDescriptor
 dataset : Option DatasetOptions:=none

/-- What the files of a registry declare: a forest of messages for each file. -/
def allMessages (files:List (List (Reordering.Tree LinkedMessage))) : List LinkedMessage :=
 files.flatMap fun messages=>messages.flatMap Tree.values

/-- `protoregistry.Files`. Linking has made sure that no two messages have a name in common and
  no two fields of a message a number. `others` are the full names of all other descriptors. -/
structure Registry where
 files : List (List (Reordering.Tree LinkedMessage))
 others : List String
 distinct : ((allMessages files).map fun m=>m.descriptor.fullName).Nodup
 numbered : ∀m∈allMessages files,(m.descriptor.fields.map FieldDescriptor.number).Nodup

def Registry.messages (registry:Registry) : List MessageDescriptor :=
 (allMessages registry.files).map LinkedMessage.descriptor

/-- `FindDescriptorByName`, and the assertion that what it finds is a message. -/
def Registry.findMessage (registry:Registry) (name:String) : Result MessageDescriptor :=
 match registry.messages.find? (·.fullName=name) with
 | some md=>.ok md
 | none=>
  if name∈registry.others then
   .error (.errorf "compile descriptor: %q is not a protobuf message" [.str name])
  else .error (.wrapf "compile descriptor: resolve dataset %q: %w" [.str name]
   (.errorf "not found" []))

def hasDatasetOption (message:LinkedMessage) : Result Bool :=
 match message.dataset with
 | none=>.ok false
 | some options=>do
  rejectIf options.unknown
   (.errorf "%s contains fields %s" [.str "dataset option",.str "unsupported by this compiler"])
  return true

mutual

def visitTree : Reordering.Tree LinkedMessage → Result (List String)
 | .node message nested=>do
  let annotated ← wrap "message %q: %w" [.str message.descriptor.fullName]
   (hasDatasetOption message)
  let names ← visitForest nested
  return (if annotated then [message.descriptor.fullName] else [])++names

def visitForest : List (Reordering.Tree LinkedMessage) → Result (List String)
 | []=>.ok []
 | message::rest=>do
  let names ← visitTree message
  let more ← visitForest rest
  return names++more
end

def sortNames (names:List String) : List String:=names.insertionSort (· ≤ ·)

def annotatedDatasetNames (registry:Registry) : Result (List String):=do
 let names ← registry.files.mapM visitForest
 return sortNames names.flatten

/-! ### The roots -/

def messageName (rawName:String) : String:=trimStart "." (trimSpace rawName)

def addName (names:List String) (rawName:String) : Result (List String):=do
 let name:=messageName rawName
 rejectIf (name = "") (.errorf "compile descriptor: dataset message name must not be empty" [])
 return if name∈names then names else names++[name]

def selectedNames (registry:Registry) (messageNames:List String) : Result (List String) :=
 if messageNames=[] then
  wrap "compile descriptor: discover datasets: %w" [] (annotatedDatasetNames registry)
 else .ok messageNames

def selectRoots (registry:Registry) (messageNames:List String) : Result (List String):=do
 let rawNames ← selectedNames registry messageNames
 let names ← loop addName [] rawNames
 rejectIf (names=[])
  (.errorf "compile descriptor: at least one dataset message must be selected or annotated" [])
 return sortNames names

def indexDataset (indexed:GoMap String DatasetSchema) (dataset:DatasetSchema) :
  Result (GoMap String DatasetSchema):=do
 rejectIf (dataset.sourceMessage = "")
  (.errorf "previous bundle contains a dataset without source_message" [])
 rejectIf (dataset.sourceMessage∈indexed)
  (.errorf "previous dataset %q is duplicated" [.str dataset.sourceMessage])
 return indexed.insert dataset.sourceMessage dataset

def indexPreviousBundle (previous:Option Decoded) : Result (GoMap String DatasetSchema) :=
 match previous with
 | none=>.ok ∅
 | some previous=>do
  let migrated ← wrap "previous bundle: %w" [] (Go.migrateSchemaBundle previous)
  loop indexDataset ∅ migrated.bundle.datasets

def rejectRemovedRoots (previousByMessage:GoMap String DatasetSchema) (names:List String) :
  Result Unit :=
 let removedRoots:=sortNames (previousByMessage.keys.filter (· ∉ names))
 rejectIf (removedRoots≠[])
  (.errorf ("compile descriptor: selected dataset roots omit previous datasets " ++
   String.intercalate ", " (removedRoots.map fun _=>"%q") ++
   "; dataset roots are append-only") (removedRoots.map FormatArg.str))

/-! ### The bundle -/

def compileDataset (registry:Registry) (previousByMessage:GoMap String DatasetSchema)
  (name:String) : Result DatasetSchema:=do
 let md ← registry.findMessage name
 rejectIf md.isMapEntry
  (.errorf "compile descriptor: %q is a synthetic protobuf map entry" [.str name])
 wrap "compile descriptor: dataset %q: %w" [.str name]
  (compileMessage ⟨⟨registry.messages⟩,md⟩ (previousByMessage.lookup name))

abbrev BundleState:=GoMap String String×List DatasetSchema

def addDataset (registry:Registry) (previousByMessage:GoMap String DatasetSchema)
  (s:BundleState) (name:String) : Result BundleState:=do
 let dataset ← compileDataset registry previousByMessage name
 rejectIf (dataset.name∈s.1)
  (.errorf ("compile descriptor: dataset storage name %q collides for protobuf messages %q " ++
   "and %q") [.str dataset.name,.str ((s.1.lookup dataset.name).getD ""),.str name])
 return (s.1.insert dataset.name name,s.2++[dataset])

def compileDatasets (registry:Registry) (messageNames:List String) (previous:Option Decoded) :
  Result (List DatasetSchema):=do
 let names ← selectRoots registry messageNames
 let previousByMessage ← wrap "compile descriptor: %w" [] (indexPreviousBundle previous)
 rejectRemovedRoots previousByMessage names
 let (_,datasets) ← loop (addDataset registry previousByMessage) (∅,[]) names
 return datasets

/-- `proto.Unmarshal`, `protodesc.NewFiles` and `sha256.Sum256`. -/
structure Libraries (δ φ:Type) where
 unmarshal : List UInt8 → Result (Image δ φ)
 newFiles : Image δ φ → Result Registry
 sha256 : List UInt8 → List UInt8

variable {δ φ:Type} (libraries:Libraries δ φ)
def link (descriptor:List UInt8) : Result Registry:=do
 let files ← wrap "compile descriptor: unmarshal FileDescriptorSet: %w" []
  (libraries.unmarshal descriptor)
 wrap "compile descriptor: %w" [] (validateAnnotationOptionNumbers files)
 wrap "compile descriptor: resolve FileDescriptorSet: %w" [] (libraries.newFiles files)

def compileDescriptorBytes (descriptor:List UInt8) (messageNames:List String)
  (previous:Option Decoded) : Result SchemaBundle:=do
 let registry ← link libraries descriptor
 let datasets ← compileDatasets registry messageNames previous
 return {
  irVersion:=irVersion
  mappingVersion:=mappingVersion
  sourceDescriptorSha256:=libraries.sha256 descriptor
  datasets:=datasets }
end InvariantProtocol.BundleCompiler
