import InvariantProtocol.GoResult
namespace InvariantProtocol.DataMapping
open GoResult

inductive MappingCompatibility where
 | unspecified | lossless | rangeWidened | precisionReduced | representationChanged | unsupported
 | rangeReduced
 deriving DecidableEq

/-- A text, as the formatting calls whose results it joins. -/
abbrev Text:=List GoError

def plain (s:String) : Text:=[.errorf s []]

structure MappingDiagnostic where
 fieldPath : String
 compatibility : MappingCompatibility
 message : Text

/-- A failed mapping still returns the diagnostics it has collected. -/
structure Rejection where
 diagnostics : List MappingDiagnostic
 error : GoError

abbrev Mapping (α:Type):=Except Rejection α

def unsupportedDiagnostic (path:String) (message:GoError) : MappingDiagnostic where
 fieldPath:=if path = "" then "<dataset>" else path
 compatibility:=.unsupported
 message:=[message]

def unsupported (path format:String) (args:List FormatArg) (message:GoError)
  (diagnostics:List MappingDiagnostic:=[]) : Rejection where
 diagnostics:=unsupportedDiagnostic path message::diagnostics
 error:=.wrapf format args message

def refuse {α:Type} (rejection:GoError → Rejection) (x:Result α) : Mapping α :=
 x.mapError rejection

def rejectWhen (p:Prop) [Decidable p] (r:Rejection) : Mapping Unit :=
 if p then .error r else .ok ()

def precededBy {α:Type} (diagnostics:List MappingDiagnostic) (x:Mapping α) : Mapping α :=
 x.mapError fun r=>{ r with diagnostics:=diagnostics++r.diagnostics }

@[simp] lemma refuse_ok {α:Type} (rejection:GoError → Rejection) (x:Result α) (a:α) :
 refuse rejection x=.ok a ↔ x=.ok a :=
 mapError_ok _ x a

@[simp] lemma rejectWhen_ok (p:Prop) [Decidable p] (r:Rejection) (u:Unit) :
 rejectWhen p r=.ok u ↔ ¬p := by
 by_cases h : p <;> simp [rejectWhen,h]

@[simp] lemma precededBy_ok {α:Type} (diagnostics:List MappingDiagnostic) (x:Mapping α) (a:α) :
 precededBy diagnostics x=.ok a ↔ x=.ok a :=
 mapError_ok _ x a
end InvariantProtocol.DataMapping
