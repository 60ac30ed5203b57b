import InvariantProtocol.ScopeNames
namespace InvariantProtocol.EvolutionHistory
open GoResult DataSchema DataEvolution DataEntries ProtoDescriptor CompilerState
open CompiledTree CompilerWalk CompileOutcome DataHistory SlotShape ScopeNames Lineage

def EnumGrows (e e':EnumType) : Prop :=
 e.fullName=e'.fullName ∧ e.closed=e'.closed ∧
  ∀value∈e.values,∃value'∈e'.values,value'.name=value.name ∧ value'.number=value.number

/-- Two logical types of one kind with the same parameters; enumerations may only grow. -/
def SameType : DataType → DataType → Prop
 | .primitive p k,.primitive p' k' => p=p' ∧ k=k'
 | .enum _ e,.enum _ e' => EnumGrows e e'
 | .struct p _,.struct p' _=>p=p'
 | .list _ _ n,.list _ _ n' => n=n'
 | .map _ _ _,.map _ _ _=>True
 | .timestamp _ u z,.timestamp _ u' z' => u=u' ∧ z=z'
 | .duration _ u,.duration _ u' => u=u'
 | .json _ k,.json _ k' => k=k'
 | .decimal _ n s,.decimal _ n' s' => n=n' ∧ s=s'
 | .uuid _,.uuid _=>True
 | .fixedBytes _ n,.fixedBytes _ n' => n=n'
 | _,_=>False

structure SameMeaning (f g:Field) : Prop where
 presence : f.attributes.presence=g.attributes.presence
 nullable : f.attributes.nullable=g.attributes.nullable
 oneof : f.attributes.oneof=g.attributes.oneof
 hasDefault : f.attributes.hasDefault=g.attributes.hasDefault
 protobufDefault : f.attributes.protobufDefault=g.attributes.protobufDefault
 type : SameType f.type g.type

lemma EnumGrows.trans {a b c:EnumType} (h:EnumGrows a b) (h':EnumGrows b c) : EnumGrows a c := by
 refine ⟨h.1.trans h'.1,h.2.1.trans h'.2.1,fun value hvalue=>?_⟩
 obtain ⟨value',hm',hnm',hn'⟩:=h.2.2 value hvalue
 obtain ⟨value'',hm'',hnm'',hn''⟩:=h'.2.2 value' hm'
 exact ⟨value'',hm'',hnm''.trans hnm',hn''.trans hn'⟩

lemma SameType.trans {s t u:DataType} (h:SameType s t) (h':SameType t u) : SameType s u := by
 cases s <;> cases t <;> try exact h.elim
 all_goals cases u <;> try exact h'.elim
 case enum.enum.enum=>exact EnumGrows.trans h h'
 case map.map.map=>trivial
 case uuid.uuid.uuid=>trivial
 case primitive.primitive.primitive=>exact ⟨h.1.trans h'.1,h.2.trans h'.2⟩
 case timestamp.timestamp.timestamp=>exact ⟨h.1.trans h'.1,h.2.trans h'.2⟩
 case decimal.decimal.decimal=>exact ⟨h.1.trans h'.1,h.2.trans h'.2⟩
 all_goals exact Eq.trans h h'

lemma SameMeaning.trans {f g k:Field} (h:SameMeaning f g) (h':SameMeaning g k) :
 SameMeaning f k where
 presence:=h.presence.trans h'.presence
 nullable:=h.nullable.trans h'.nullable
 oneof:=h.oneof.trans h'.oneof
 hasDefault:=h.hasDefault.trans h'.hasDefault
 protobufDefault:=h.protobufDefault.trans h'.protobufDefault
 type:=SameType.trans h.type h'.type

lemma enumGrows_of_compatible {e e':EnumType} (h:compatibleEnumEvolution e e'=true) : EnumGrows e e' := by
 simp only [compatibleEnumEvolution,Bool.and_eq_true,decide_eq_true_eq,List.all_eq_true,
  List.contains_iff_mem,List.mem_map,Prod.mk.injEq] at h
 exact ⟨h.1.1,h.1.2,h.2⟩

lemma sameType_of_shape {files:Files} {slot:Slot} {s t:DataType} (hf:SlotForm files slot t)
 (h:sameLogicalShape s t=true) : SameType s t := by
 have hnil:t≠.nil:=by
  rintro rfl
  cases hf with
  | leaf hl _ _=>simp [isLeaf] at hl
 cases s <;> cases t <;> first
  | exact absurd rfl hnil
  | exact Bool.noConfusion h
  | skip
 case enum.enum=>exact enumGrows_of_compatible h
 all_goals
  simp only [sameLogicalShape,Bool.and_eq_true,decide_eq_true_eq] at h
  simp only [SameType]
 case timestamp.timestamp=>exact ⟨h.1.2,h.2⟩
 case duration.duration=>exact h.2
 case json.json=>exact h.2
 all_goals exact h

lemma compilation_sameMeaning {m:Descriptor} {p d:DatasetSchema} {c v:DatasetCompiler}
 (C:Compilation m (some p) d c v) {i:String} {f g:Field} (hf:(i,f)∈activeEntries p)
 (hg:(i,g)∈activeEntries d) : SameMeaning f g := by
 obtain ⟨⟨hp,hn⟩,ho,⟨hd,ht⟩,hs⟩:=
  validateChange_ok.1 (evolved C hf hg)
 obtain ⟨slot,path,parent,fuel,stack,hoc,rfl,hc⟩:=active_node C hg
 exact ⟨hp,hn,ho,hd,ht,
  sameType_of_shape (slotForm_of_shape hc.node.shape) hs⟩

/-- A later dataset of a run: the identities it shares with the earlier one mean the same. -/
structure EvolvedFrom (d e:DatasetSchema) : Prop where
 successor : Successor d e
 ok : DatasetOk e
 meaning : ∀i f g,(i,f)∈activeEntries d → (i,g)∈activeEntries e → SameMeaning f g

lemma EvolvedFrom.trans {d e k:DatasetSchema} (h:EvolvedFrom d e) (h':EvolvedFrom e k) :
 EvolvedFrom d k := by
 refine ⟨h.successor.trans h'.successor,h'.ok,fun i f g hf hg=>?_⟩
 -- An identity active at both ends is active in between, since retirement is final.
 obtain ⟨s,hs,hi,-⟩:=h.successor.kept (recordOf i f)
  (mem_records.2 (Or.inr (mem_activeRecords.2 ⟨f,hf,rfl⟩)))
 obtain hr|ha:=mem_records.1 hs
 · refine absurd hg ?_
   rw [show i=s.identity from hi.symm]
   exact DatasetOk.not_active h'.ok (h'.successor.retired s hr) g
 · obtain ⟨x,hx,-⟩:=mem_activeRecords.1 ha
   rw [show s.identity=i from hi] at hx
   exact (h.meaning i f x hf hx).trans (h'.meaning i x g hx hg)

theorem meaning_permanent {previous:Option DatasetSchema} {steps:List (Descriptor×DatasetSchema)}
  (run:CompilationRun previous steps) : (results steps).Pairwise fun d e=>
   ∀i f g,(i,f)∈activeEntries d → (i,g)∈activeEntries e → SameMeaning f g := by
 have hp:=Run.pairwise (R := EvolvedFrom) (fun _ _ _=>EvolvedFrom.trans)
  (fun m p d h=>by
   obtain ⟨c,v,C⟩:=compileMessage_ok.1 h
   exact ⟨compilation_successor C,C.datasetOk,fun i f g hf hg=>compilation_sameMeaning C hf hg⟩)
  run
 exact hp.1.imp fun h=>h.meaning

theorem order_meaning_permanent : CompilationRun none [(order,orderDataset),(trimmedOrder,trimmedDataset)] ∧
   ∀i f g,(i,f)∈activeEntries orderDataset → (i,g)∈activeEntries trimmedDataset →
    SameMeaning f g := by
 have h:=meaning_permanent order_run
 exact ⟨order_run,by simpa [results] using h⟩
end InvariantProtocol.EvolutionHistory
