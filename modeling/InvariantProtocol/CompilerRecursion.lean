import InvariantProtocol.DataCompiler
import Mathlib.Data.List.Nodup
import Mathlib.Logic.Relation
namespace InvariantProtocol.CompilerRecursion
open GoResult GoText DataSchema DataIdentity DataNames DataEvolution ProtoDescriptor CompilerState
open DataCompiler
open List hiding tail

@[simp] def cause : GoError → GoError
 | .wrapf _ _ e=>cause e
 | e=>e

/-- The fields whose values a field holds: itself, or those of its map entry. -/
def valueFields (files:Files) (fd:FieldDescriptor) : List FieldDescriptor :=
 if fd.isMap files then (fd.mapKey files).toList++(fd.mapValue files).toList else [fd]

/-- `md` refers to `target` by a field, a list element or a map; a well-known type is a leaf. -/
def Refers (files:Files) (md target:MessageDescriptor) : Prop :=
 ∃fd∈md.fields,∃v∈valueFields files fd,
  v.messageType files=some target ∧ wellKnownType target.fullName=none

abbrev Reaches (files:Files):=Relation.ReflTransGen (Refers files)

/-- Some message on a path from the root is met again further down that path. -/
def IsRecursive (files:Files) (root:MessageDescriptor) : Prop :=
 ∃md target,Reaches files root md ∧ Relation.TransGen (Refers files) md target ∧
  target.fullName=md.fullName

/-- The budget never runs out, and recursion is reported only if `R`. -/
@[simp] def Reports (R:Prop) : GoError → Prop
 | .errorf format _=>format = "recursive protobuf message %q is not a finite row schema" → R
 | _=>False

section
variable {R:Prop} {α β σ:Type}
def Fails (R:Prop) (x:Result α) : Prop := ∀e,x=.error e → Reports R (cause e)

@[simp] lemma fails_ok (a:α) : Fails R (.ok a : Result α) := by
 rintro e ⟨⟩

@[simp] lemma fails_error (e:GoError) : Fails R (.error e : Result α) ↔ Reports R (cause e) :=
 ⟨fun h=>h e rfl,by rintro h _ ⟨⟩;exact h⟩

@[simp] lemma fails_bind (x:Result α) (f:α → Result β) :
 Fails R (x >>= f) ↔ Fails R x ∧ ∀a,x=.ok a → Fails R (f a) := by
 cases x with
 | ok a=>simp [bind,Except.bind]
 | error e=>simp [bind,Except.bind]

@[simp] lemma fails_map (f:α → β) (x:Result α) : Fails R (f <$> x) ↔ Fails R x := by
 cases x with
 | ok a=>simp [Functor.map,Except.map]
 | error e=>simp [Functor.map,Except.map]

@[simp] lemma fails_wrap (format:String) (args:List FormatArg) (x:Result α) :
 Fails R (wrap format args x) ↔ Fails R x := by
 cases x with
 | ok a=>simp [wrap,Except.mapError]
 | error e=>simp [wrap,Except.mapError]

@[simp] lemma fails_rejectIf (p:Prop) [Decidable p] (e:GoError) :
 Fails R (rejectIf p e) ↔ (p → Reports R (cause e)) := by
 by_cases h : p <;> simp [rejectIf,h]

lemma fails_loop {step:σ → α → Result σ} (h:∀s a,Fails R (step s a)) (s:σ) (l:List α) :
 Fails R (loop step s l) := by
 induction l generalizing s with
 | nil=>simp
 | cons a l ih=>
  rw [loop,fails_bind]
  exact ⟨h s a,fun t _=>ih t⟩
end

section
variable {R:Prop} (h:CompilerHistory) (c:DatasetCompiler) (md:MessageDescriptor)
  (identity parent name source:String) (path:List UInt32) (files:Files)
  (fd:FieldDescriptor) (options:Option FieldOptions)
lemma roleStep_fails (s:ℕ×SyntheticRole) (segment:String) : Fails R (roleStep identity s segment) := by
 have hr:Fails R (segmentRole identity segment):=by
  unfold segmentRole
  repeat' split
  all_goals simp
 simp [roleStep,hr]

@[simp] lemma compilerIdentityRole_fails : Fails R (compilerIdentityRole identity) := by
 simp [compilerIdentityRole,fails_loop (roleStep_fails identity)]

@[simp] lemma exactProtoFieldName_fails : Fails R (exactProtoFieldName name) := by
 unfold exactProtoFieldName
 split_ifs <;> simp

@[simp] lemma validateStableID_fails (id:ℤ) : Fails R (validateStableID id) := by
 simp [validateStableID]

@[simp] lemma validateCompilerOwnedName_fails (protoFullName:String) :
 Fails R (validateCompilerOwnedName identity protoFullName name source) := by
 simp only [validateCompilerOwnedName,fails_bind,compilerIdentityRole_fails,true_and]
 intro role _
 cases role <;> simp [validateSyntheticName]

@[simp] lemma registerHistoricalName_fails : Fails R (registerHistoricalName c identity name) := by
 simp [registerHistoricalName]

lemma registerRetired_fails (field:RetiredField) : Fails R (registerRetired c field) := by
 simp [registerRetired]

@[simp] lemma registerPrevious_fails (field:Field) : Fails R (registerPrevious c identity field) := by
 simp [registerPrevious]

@[simp] lemma previousIdentity_fails (a:FieldAttributes) (role:SyntheticRole) :
 Fails R (previousIdentity a path parent role) := by
 cases role <;> simp [previousIdentity,syntheticIdentity]

mutual

lemma indexPreviousField_fails : ∀field path parent role c,
 Fails R (indexPreviousField field path parent role c)
 | .nil,_,_,_,_=>by simp [indexPreviousField]
 | .mk a t,_,_,_,_=>by simp [indexPreviousField,indexPreviousType_fails t]

lemma indexPreviousType_fails : ∀t a identity c,Fails R (indexPreviousType t a identity c)
 | .nil,_,_,_=>by simp [indexPreviousType]
 | .struct _ fields,_,_,_=>by simp [indexPreviousType,indexPreviousFields_fails fields]
 | .list _ element _,_,_,_=>by simp [indexPreviousType,indexPreviousField_fails element]
 | .map _ key value,_,_,_=>by
  simp [indexPreviousType,indexPreviousField_fails key,indexPreviousField_fails value]
 | .unset _,_,_,_ | .primitive _ _,_,_,_ | .enum _ _,_,_,_ | .timestamp _ _ _,_,_,_
 | .duration _ _,_,_,_ | .json _ _,_,_,_ | .decimal _ _ _,_,_,_ | .uuid _,_,_,_
 | .fixedBytes _ _,_,_,_=>by simp [indexPreviousType]

lemma indexPreviousFields_fails : ∀fields path identity c,
 Fails R (indexPreviousFields fields path identity c)
 | [],_,_,_=>by simp [indexPreviousFields]
 | field::rest,_,_,_=>by
  simp [indexPreviousFields,indexPreviousField_fails field,indexPreviousFields_fails rest]
end

lemma startCompiler_fails (previous:Option DatasetSchema) : Fails R (startCompiler md previous) := by
 have hr:∀c fd,Fails R (reserveTopLevel md c fd):=by simp [reserveTopLevel]
 cases previous with
 | none=>simp [startCompiler,newDatasetCompiler,fails_loop hr]
 | some previous=>
  simp [startCompiler,newDatasetCompiler,fails_loop registerRetired_fails,indexPreviousFields_fails]

@[simp] lemma allocate_fails : Fails R (allocate c identity) := by
 unfold allocate
 dsimp only
 repeat' split
 all_goals simp

@[simp] lemma validateEvolution_fails (field:Field) : Fails R (validateEvolution h identity field) := by
 unfold validateEvolution
 split <;> simp [validateChange]

@[simp] lemma dataFieldOptions_fails : Fails R (dataFieldOptions fd) := by
 unfold dataFieldOptions
 split <;> simp

@[simp] lemma storageFieldName_fails : Fails R (storageFieldName h identity parent md fd) := by
 simp only [storageFieldName]
 split <;> simp [previousStorageSource]

@[simp] lemma refinedType_fails (options:FieldOptions) : Fails R (refinedType fd options) := by
 unfold refinedType
 split <;> simp

@[simp] lemma validateFixedList_fails : Fails R (validateFixedList files md fd options) := by
 unfold validateFixedList
 split <;> simp

@[simp] lemma validateRefinedSingular_fails : Fails R (validateRefinedSingular files md fd options) := by
 unfold validateRefinedSingular
 split <;> simp

@[simp] lemma validateStorageNameCollisions_fails (fields:List Field) :
 Fails R (validateStorageNameCollisions name fields) := by
 have hs:∀owners field,Fails R (collisionStep name owners field):=by simp [collisionStep]
 simp [validateStorageNameCollisions,fails_loop hs]

lemma validateRetiredReservation_fails (containers:GoMap String MessageDescriptor)
 (field:RetiredField) : Fails R (validateRetiredReservation containers field) := by
 simp only [validateRetiredReservation,fails_bind,fails_wrap,compilerIdentityRole_fails,true_and]
 intro role _
 repeat' split
 all_goals simp
end

section
variable {R:Prop} {valueType:ValueCompiler} {files:Files} {md target root:MessageDescriptor}
  {fd v:FieldDescriptor} {stack:List String} {c:DatasetCompiler} {path:List UInt32}
  {identity name protoFullName:String} {role:SyntheticRole} {fuel:ℕ}
  {options:Option FieldOptions} {fds:List FieldDescriptor} {struct:StructCompiler}
def ValueFails (R:Prop) (valueType:ValueCompiler) (stack:List String) (v:FieldDescriptor) : Prop :=
 ∀c path identity,Fails R (valueType c v path identity stack)

lemma compileRefinedValueType_fails (h:ValueFails R valueType stack v) :
 Fails R (compileRefinedValueType valueType c v path identity stack options) := by
 cases options with
 | none=>exact h c path identity
 | some options=>simp [compileRefinedValueType]

lemma compileSyntheticField_fails (h:ValueFails R valueType stack v) : Fails R
  (compileSyntheticField valueType c v name protoFullName path identity role stack options) := by
 simp [compileSyntheticField,compileRefinedValueType_fails h]

lemma compileFieldType_fails (h:∀v∈valueFields files fd,ValueFails R valueType stack v) :
 Fails R (compileFieldType valueType files c md fd path identity stack options) := by
 unfold compileFieldType
 split_ifs with hm hl
 · simp only [valueFields,hm,if_true,mem_append,Option.mem_toList] at h
   unfold compileMapType
   cases hk : fd.mapKey files <;> cases hvalue : fd.mapValue files <;>
    simp_all [mapEntryField,compileSyntheticField_fails]
 · simp [compileListType,compileSyntheticField_fails (h fd (by simp [valueFields,hm]))]
 · exact compileRefinedValueType_fails (h fd (by simp [valueFields,hm]))

lemma compileProtoFields_fails (h:∀fd∈fds,∀v∈valueFields files fd,ValueFails R valueType stack v) :
 Fails R (compileProtoFields valueType files md path identity stack c fds) := by
 induction fds generalizing c with
 | nil=>simp [compileProtoFields]
 | cons fd fds ih=>
  simp [compileProtoFields,compileProtoField,compileFieldType_fails (h fd mem_cons_self),
   ih fun fd hfd=>h fd (mem_cons_of_mem _ hfd)]

lemma compileValue_fails (h:∀target,v.messageType files=some target → wellKnownType target.fullName=none →
  (target.fullName∈stack → R) ∧ (target.fullName∉stack → ∀c path identity,
   Fails R (struct c target path identity stack))) : ValueFails R (compileValue struct files) stack v := by
 intro c path identity
 unfold compileValue
 split
 · simp
 split
 · simp
 unfold compileMessageValue
 split
 · simp
 next target ht=>
  rw [fails_bind]
  refine ⟨by simp [rejectExtensionRanges],fun _ _=>?_⟩
  split
  · simp
  next hk=>
   obtain ⟨hr,hs⟩:=h target ht hk
   rw [fails_bind,fails_rejectIf]
   exact ⟨fun hm _=>hr hm,fun _ hn=>hs ((rejectIf_ok _ _ _).1 hn) _ _ _⟩

lemma messageType_mem (h:v.messageType files=some target) : target∈files.messages := by
 unfold FieldDescriptor.messageType at h
 split at h
 · exact List.mem_of_find?_eq_some h
 · exact List.mem_of_find?_eq_some h
 · cases h

/-- The walk inside `md`: the stack names the messages between the root and `md`, each once. -/
structure Walking (files:Files) (root md:MessageDescriptor) (stack:List String) (fuel:ℕ) :
  Prop where
 reached : Reaches files root md
 path : ∀name∈stack,∃x,Reaches files root x ∧ Reaches files x md ∧ x.fullName=name
 distinct : stack.Nodup
 budget : files.messages.length+2≤fuel+stack.length

lemma Walking.length_le (h:Walking files root md stack fuel) : stack.length≤files.messages.length+1 := by
 have hsub:stack ⊆ root.fullName::files.messages.map (·.fullName):=by
  intro name hn
  obtain ⟨x,hx,-,rfl⟩:=h.path name hn
  cases hx with
  | refl=>exact mem_cons_self
  | tail _ hl=>
   obtain ⟨_,_,_,_,hx,-⟩:=hl
   exact mem_cons_of_mem _ (mem_map_of_mem (messageType_mem hx))
 simpa using (subperm_of_subset h.distinct hsub).length_le

lemma Walking.enter (h:Walking files root md stack (fuel+1)) (hr:Refers files md target)
 (hnw:target.fullName∉stack) :
 Walking files root target (target.fullName::stack) fuel where
 reached:=h.reached.tail hr
 path:=by
  rw [forall_mem_cons]
  refine ⟨⟨target,h.reached.tail hr,.refl,rfl⟩,fun name hn=>?_⟩
  obtain ⟨x,hrt,hx,hxn⟩:=h.path name hn
  exact ⟨x,hrt,hx.tail hr,hxn⟩
 distinct:=List.nodup_cons.2 ⟨hnw,h.distinct⟩
 budget:=by
  have:=h.budget
  rw [length_cons]
  omega

lemma compileValueType_fails (h:Walking files root md stack fuel) (hfd:fd∈md.fields)
 (hv:v∈valueFields files fd) :
 ValueFails (IsRecursive files root) (compileValueType files fuel) stack v := by
 induction fuel generalizing md stack fd v with
 | zero=>
  have hb:=h.budget
  have hl:=h.length_le
  omega
 | succ fuel ih=>
  refine compileValue_fails fun target ht hk=>⟨fun hm=>?_,fun hnw c path identity=>?_⟩
  · obtain ⟨x,hr,hx,hn⟩:=h.path _ hm
    exact ⟨x,target,hr,.tail' hx ⟨fd,hfd,v,hv,ht,hk⟩,hn.symm⟩
  · have hw:=h.enter ⟨fd,hfd,v,hv,ht,hk⟩ hnw
    simp [compileStruct,compileProtoFields_fails
     fun fd hfd v hv=>ih hw (mem_sortedFields.1 hfd) hv]

lemma compileMessage_fails (m:Descriptor) (previous:Option DatasetSchema) :
 Fails (IsRecursive m.files m.message) (compileMessage m previous) := by
 have hw:Walking m.files m.message m.message [m.message.fullName] (recursionBudget m.files):=by
  refine ⟨.refl,?_,nodup_singleton _,by simp [recursionBudget]⟩
  simp only [forall_mem_singleton]
  exact ⟨m.message,.refl,.refl,rfl⟩
 have hr:=fun c : DatasetCompiler=>fails_loop
  (fun _=>validateRetiredReservation_fails (R := IsRecursive m.files m.message) c.currentContainers) ()
 unfold compileMessage
 dsimp only
 split_ifs
 · simp
 · simp
 · simp [rejectExtensionRanges,startCompiler_fails,hr,compileProtoFields_fails
    fun fd hfd v hv=>compileValueType_fails hw (mem_sortedFields.1 hfd) hv]

lemma refinedType_message {options:FieldOptions} {t:DataType}
 (h:refinedType v options=.ok t) : v.messageType files=none := by
 unfold refinedType at h
 have hk:v.kind=.string ∨ v.kind=.bytes:=by
  split at h
  · exact .inl (by simpa using ((bind_ok _ _ _).1 h).imp fun _ h=>h.1)
  · exact .inl (by simpa using ((bind_ok _ _ _).1 h).imp fun _ h=>h.1)
  · exact .inr (by simpa using ((bind_ok _ _ _).1 h).imp fun _ h=>h.1)
  · cases h
 obtain hk|hk:=hk <;> simp [FieldDescriptor.messageType,hk]

/-- The value compiler has succeeded on `v` at some point of the walk. -/
def Compiles (valueType:ValueCompiler) (stack:List String) (v:FieldDescriptor) : Prop :=
 ∃c path identity r,valueType c v path identity stack=.ok r

variable {r:DataType×DatasetCompiler}
lemma refined_value (h:compileRefinedValueType valueType c v path identity stack options=.ok r)
 (hv:v.messageType files=some target) : Compiles valueType stack v := by
 cases options with
 | none=>exact ⟨c,path,identity,r,h⟩
 | some options=>
  rw [compileRefinedValueType,bind_ok] at h
  obtain ⟨t,ht,-⟩:=h
  rw [refinedType_message ht] at hv
  cases hv

lemma synthetic_value {r:Field×DatasetCompiler}
 (h:compileSyntheticField valueType c v name protoFullName path identity role stack options=.ok r)
 (hv:v.messageType files=some target) : Compiles valueType stack v := by
 simp only [compileSyntheticField,bind_ok] at h
 obtain ⟨_,-,_,hvalue,-⟩:=h
 exact refined_value hvalue hv

lemma compileFieldType_value (h:compileFieldType valueType files c md fd path identity stack options=.ok r)
 (hv:v∈valueFields files fd) (ht:v.messageType files=some target) : Compiles valueType stack v := by
 unfold compileFieldType at h
 unfold valueFields at hv
 split_ifs at h hv with hm hl
 · simp only [compileMapType,bind_ok,wrap_ok] at h
   obtain ⟨key,hky,_,hk,value,hvalue,_,hvf,-⟩:=h
   rw [mem_append,Option.mem_toList,Option.mem_toList] at hv
   obtain hv|hv:=hv
   · obtain rfl : v=key:=by simpa [hv,mapEntryField] using hky
     exact synthetic_value hk ht
   · obtain rfl : v=value:=by simpa [hv,mapEntryField] using hvalue
     exact synthetic_value hvf ht
 · obtain rfl:=List.mem_singleton.1 hv
   simp only [compileListType,bind_ok,wrap_ok] at h
   obtain ⟨_,hel,-⟩:=h
   exact synthetic_value hel ht
 · obtain rfl:=List.mem_singleton.1 hv
   exact refined_value h ht

variable {r:List Field×DatasetCompiler}
lemma compileProtoFields_value
 (h:compileProtoFields valueType files md path identity stack c fds=.ok r) (hfd:fd∈fds)
 (hv:v∈valueFields files fd) (ht:v.messageType files=some target) : Compiles valueType stack v := by
 induction fds generalizing c r with
 | nil=>cases hfd
 | cons first rest ih=>
  simp only [compileProtoFields,bind_ok] at h
  obtain ⟨_,hf,_,hr,-⟩:=h
  obtain rfl|hfd:=List.mem_cons.1 hfd
  · simp only [compileProtoField,bind_ok,wrap_ok] at hf
    obtain ⟨_,-,_,-,_,-,_,-,_,-,_,-,_,hty,-⟩:=hf
    exact compileFieldType_value hty hv ht
  · exact ih hr hfd

lemma compileValue_value (h:Compiles (compileValue struct files) stack v)
 (ht:v.messageType files=some target) (hk:wellKnownType target.fullName=none) :
 target.fullName∉stack ∧ ∃c path identity r,struct c target path identity stack=.ok r := by
 obtain ⟨c,path,identity,r,h⟩:=h
 have hm:compileValue struct files c v path identity stack =
   compileMessageValue struct files c v path identity stack:=by
  unfold FieldDescriptor.messageType at ht
  split at ht <;> simp_all [compileValue,primitiveKind]
 simp only [hm,compileMessageValue,ht,hk,bind_ok,rejectIf_ok,exists_const] at h
 obtain ⟨_,-,hn,hs⟩:=h
 exact ⟨hn,_,_,_,_,hs⟩

/-- Below `md` no name of the stack is met again, nor any message inside itself. -/
structure Clear (files:Files) (md:MessageDescriptor) (stack:List String) : Prop where
 fresh : ∀x,Relation.TransGen (Refers files) md x → x.fullName∉stack
 acyclic : ¬IsRecursive files md

lemma clear_of_targets (hs:md.fullName∈stack) (h:∀target,Refers files md target →
  target.fullName∉stack ∧ Clear files target (target.fullName::stack)) : Clear files md stack := by
 have hf:∀x,Relation.TransGen (Refers files) md x → x.fullName∉stack:=by
  intro x hx
  obtain ⟨target,hr,hx⟩:=Relation.TransGen.head'_iff.1 hx
  obtain rfl|hx:=Relation.reflTransGen_iff_eq_or_transGen.1 hx
  · exact (h _ hr).1
  · exact fun hm=>(h target hr).2.fresh x hx (mem_cons_of_mem _ hm)
 refine ⟨hf,?_⟩
 rintro ⟨x,y,hx,hy,hn⟩
 obtain rfl|⟨target,hr,hx⟩:=Relation.ReflTransGen.cases_head hx
 · exact hf y hy (hn ▸ hs)
 · exact (h target hr).2.acyclic ⟨x,y,hx,hy,hn⟩

lemma compileProtoFields_clear (hsl:md.fullName∈stack)
 (h:compileProtoFields (compileValueType files fuel) files md path identity stack c
  (sortedFields md.fields)=.ok r) : Clear files md stack := by
 induction fuel generalizing md stack path identity c r with
 | zero=>
  refine clear_of_targets hsl ?_
  rintro target ⟨fd,hfd,v,hv,ht,hk⟩
  have hvalue:=compileProtoFields_value h (mem_sortedFields.2 hfd) hv ht
  obtain ⟨-,_,_,_,_,hs⟩:=compileValue_value hvalue ht hk
  cases hs
 | succ fuel ih=>
  refine clear_of_targets hsl ?_
  rintro target ⟨fd,hfd,v,hv,ht,hk⟩
  have hvalue:=compileProtoFields_value h (mem_sortedFields.2 hfd) hv ht
  obtain ⟨hn,_,_,_,_,hs⟩:=compileValue_value hvalue ht hk
  simp only [compileStruct,bind_ok] at hs
  obtain ⟨_,hf,-⟩:=hs
  exact ⟨hn,ih mem_cons_self hf⟩
end

/-- The walk never runs out of its budget; it reports recursion only where a message below the
  root is met again on its own path, and it succeeds only where none is. -/
theorem recursion_detected (m:Descriptor) (previous:Option DatasetSchema) :
  (∀e,compileMessage m previous=.error e → cause e≠.exhausted ∧
   ∀args,cause e=.errorf "recursive protobuf message %q is not a finite row schema" args →
    IsRecursive m.files m.message) ∧
  ∀d,compileMessage m previous=.ok d → ¬IsRecursive m.files m.message := by
 refine ⟨fun e he=>?_,fun d hd=>?_⟩
 · have hc:=compileMessage_fails m previous e he
   refine ⟨fun hex=>?_,fun args ha=>?_⟩
   · rw [hex] at hc
     exact hc
   · rw [ha] at hc
     exact hc rfl
 · unfold compileMessage at hd
   dsimp only at hd
   split_ifs at hd
   simp only [wrap_ok,bind_ok] at hd
   obtain ⟨_,-,_,-,_,hf,-⟩:=hd
   exact (compileProtoFields_clear mem_cons_self hf).acyclic
end InvariantProtocol.CompilerRecursion
