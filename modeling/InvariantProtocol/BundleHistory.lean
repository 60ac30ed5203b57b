import InvariantProtocol.BundleOrder
import InvariantProtocol.EvolutionHistory
namespace InvariantProtocol.BundleHistory
open ListRelations GoResult DataSchema DataBundle BundleMigration CompilerState DataCompiler
open CompileOutcome DataHistory EvolutionHistory BundleCompiler BundleOrder Lineage

/-- A bundle that is read back as it was written. -/
def stored (bundle:SchemaBundle) : Decoded:=⟨bundle,fun _=>[]⟩

def BundleRun {δ φ:Type} (libraries:Libraries δ φ) (previous:Option SchemaBundle)
  (steps:List ((List UInt8×List String)×SchemaBundle)) : Prop :=
 Run (fun input previous bundle=>
  compileDescriptorBytes libraries input.1 input.2 (previous.map stored)=.ok bundle) previous steps

/-- Every dataset of the first bundle lives on in the second. -/
def Continued (b b':SchemaBundle) : Prop :=
 ∀d∈b.datasets,∃e∈b'.datasets,e.sourceMessage=d.sourceMessage ∧ EvolvedFrom d e

lemma Continued.trans {a b c:SchemaBundle} (h:Continued a b) (h':Continued b c) : Continued a c := by
 intro d hd
 obtain ⟨e,he,hs,hde⟩:=h d hd
 obtain ⟨k,hk,hs',hek⟩:=h' e he
 exact ⟨k,hk,hs'.trans hs,hde.trans hek⟩

lemma indexDatasets_lookup {datasets:List DatasetSchema} {indexed out:GoMap String DatasetSchema}
 (h:loop indexDataset indexed datasets=.ok out) :
 (∀name d,indexed.lookup name=some d → out.lookup name=some d) ∧
  ∀d∈datasets,out.lookup d.sourceMessage=some d := by
 induction datasets generalizing indexed with
 | nil=>
  obtain rfl : indexed=out:=by simpa using h
  simp
 | cons dataset rest ih=>
  obtain ⟨next,hn,hr⟩:=(loop_cons _ _ _ _ _).1 h
  simp only [indexDataset,bind_ok,rejectIf_ok,exists_const,pure_ok] at hn
  obtain ⟨-,hf,rfl⟩:=hn
  obtain ⟨hb,ha⟩:=ih hr
  refine ⟨fun name d hd=>hb name d ?_,List.forall_mem_cons.2 ⟨hb _ _ (AList.lookup_insert _),ha⟩⟩
  -- a source message that is indexed already is refused, so no entry is replaced
  rw [AList.lookup_insert_ne,hd]
  rintro rfl
  exact hf (AList.lookup_isSome.1 (by rw [hd];rfl))

variable {δ φ:Type} {libraries:Libraries δ φ}
lemma compileDescriptorBytes_continued {descriptor:List UInt8} {names:List String}
 {b b':SchemaBundle} (h:compileDescriptorBytes libraries descriptor names (some (stored b))=.ok b') :
 Continued b b' := by
 intro d hd
 obtain ⟨registry,-,hc⟩:=compileDescriptorBytes_ok libraries h
 obtain ⟨roots,indexed,-,hi,hk,hall⟩:=compileDatasets_ok hc
 have hr:=hk _ (indexPreviousBundle_mem hi d hd)
 obtain ⟨e,he,hde⟩:=forall₂_mem_left hall hr
 refine ⟨e,he,compileDataset_sourceMessage hde,?_⟩
 simp only [indexPreviousBundle,bind_ok,wrap_ok,Go.migrateSchemaBundle_ok] at hi
 obtain ⟨_,⟨-,rfl⟩,hi⟩:=hi
 simp only [compileDataset,bind_ok,wrap_ok,exists_unit_ok,(indexDatasets_lookup hi).2 d hd] at hde
 obtain ⟨md,-,-,hde⟩:=hde
 obtain ⟨c,v,C⟩:=compileMessage_ok.1 hde
 exact ⟨compilation_successor C,C.datasetOk,fun i f g hf hg=>compilation_sameMeaning C hf hg⟩

/-- In every run of bundle compilations no dataset is ever lost: each later bundle has a dataset of the
  same message, which keeps every identity with its stable ID, what it retired, and what its IDs mean. -/
theorem datasets_continued {previous:Option SchemaBundle}
  {steps:List ((List UInt8×List String)×SchemaBundle)} (run:BundleRun libraries previous steps) :
  (results steps).Pairwise Continued ∧ ∀b,previous=some b → ∀b'∈results steps,Continued b b' :=
 Run.pairwise (R := Continued) (fun _ _ _=>Continued.trans)
  (fun _ _ _ h=>compileDescriptorBytes_continued h) run

def orderFile (md:ProtoDescriptor.MessageDescriptor) : List (Reordering.Tree LinkedMessage) :=
 [.node { descriptor:=orderItem } [],.node { descriptor:=md } []]

/-- The first descriptor declares the whole order, every other one the trimmed order. -/
def orderLibraries : Libraries Bool Unit where
 unmarshal descriptor:=.ok [⟨"shop",[],[],descriptor=[1]⟩]
 newFiles image :=
  .ok (if image.all (·.rest) then ⟨[orderFile order.message],[],by decide,by decide⟩
   else ⟨[orderFile trimmedOrder.message],[],by decide,by decide⟩)
 sha256:=id

def compileOrder (descriptor:List UInt8) (previous:Option SchemaBundle) : Result SchemaBundle :=
 compileDescriptorBytes orderLibraries descriptor ["shop.Order"] (previous.map stored)

@[irreducible] def orderBundle : SchemaBundle:=value (compileOrder [1] none) (by decide +kernel)

@[irreducible] def trimmedBundle : SchemaBundle:=value (compileOrder [2] (some orderBundle)) (by decide +kernel)

@[irreducible] def laterBundle : SchemaBundle:=value (compileOrder [3] (some trimmedBundle)) (by decide +kernel)

/-- A field is retired in the first step and stays so in the second. -/
theorem order_bundles_continued :
  BundleRun orderLibraries (some orderBundle) [(([2],["shop.Order"]),trimmedBundle),(([3],["shop.Order"]),laterBundle)] ∧
  orderBundle.datasets.map (fun d=>(PreviousIndex.stableIDs d).length)=[4] ∧
  trimmedBundle.datasets.map (fun d=>d.retiredFields.length)=[1] ∧
  Continued orderBundle laterBundle ∧ Continued trimmedBundle laterBundle := by
 have ht:compileOrder [2] (some orderBundle)=.ok trimmedBundle := by
  rw [trimmedBundle]
  exact eq_ok_value _ _
 have hl:compileOrder [3] (some trimmedBundle)=.ok laterBundle := by
  rw [laterBundle]
  exact eq_ok_value _ _
 have run:BundleRun orderLibraries (some orderBundle)
   [(([2],["shop.Order"]),trimmedBundle),(([3],["shop.Order"]),laterBundle)]:=.cons ht (.cons hl (.nil _))
 have h:=datasets_continued run
 exact ⟨run,by decide +kernel,by decide +kernel,h.2 _ rfl _ (by simp [results]),by simpa [results] using h.1⟩
end InvariantProtocol.BundleHistory
