import InvariantProtocol.PythonDescriptor
/-! Converting protobuf messages to Arrow rows, at once and in batches. Both ways build the schema of
the dataset first; here it has been built. -/
namespace InvariantProtocol.ArrowBatches
open List GoResult DataSchema ProtoDescriptor

/-- What a validation does: it reads field definitions of files, and passes or fails. -/
inductive Validation (F P E:Type) where
 | done (result:Except E Unit)
 | read (file:F) (name:String) (next:P → Validation F P E)

/-- The Python runtime. Objects are compared by identity; an address, `id`, may be used again. -/
structure Runtime (D F P M R E:Type) where
 sourceMessage : String
 descriptor : M → Option D
 fullName : D → String
 descriptorId : D → ℕ
 validateMessageDescriptor : D → Validation F P E
 fileId : F → ℕ
 fieldsByName : F → String → Option P
 cannotConvert : Option String → E
 missingDefinition : String → E
 /-- The check for required fields and the values of the dataset's fields. -/
 fieldValues : M → Except E R

variable {D F P M R E:Type} [DecidableEq D] [DecidableEq F] (rt:Runtime D F P M R E)

abbrev FieldProtos (F P:Type):=ℕ → Option (F×(String → Option P))

structure Caches (D F P:Type) where
 validatedDescriptors : ℕ → Option D
 fieldProtos : FieldProtos F P

def fileIndex (file:F) (protos:FieldProtos F P) : (String → Option P)×FieldProtos F P :=
 let parsed:=rt.fieldsByName file
 match protos (rt.fileId file) with
 | some (cached,byName)=>
  if cached=file then (byName,protos) else (parsed,Function.update protos (rt.fileId file) (some (file,parsed)))
 | none=>(parsed,Function.update protos (rt.fileId file) (some (file,parsed)))

def validate : Validation F P E → FieldProtos F P → Except E (FieldProtos F P)
 | .done result,protos=>result.map fun _=>protos
 | .read file name next,protos=>
  match (fileIndex rt file protos).1 name with
  | none=>.error (rt.missingDefinition name)
  | some proto=>validate (next proto) (fileIndex rt file protos).2

def validateOnce (d:D) (caches:Caches D F P) : Except E (Caches D F P) :=
 if caches.validatedDescriptors (rt.descriptorId d)=some d then .ok caches
 else
  (validate rt (rt.validateMessageDescriptor d) caches.fieldProtos).map fun protos=>
   ⟨Function.update caches.validatedDescriptors (rt.descriptorId d) (some d),protos⟩

def messageRow (message:M) (caches:Caches D F P) :
  Except E (R×Caches D F P) :=
 match rt.descriptor message with
 | none=>.error (rt.cannotConvert none)
 | some d=>
  if rt.fullName d≠rt.sourceMessage then .error (rt.cannotConvert (some (rt.fullName d)))
  else do
   let caches ← validateOnce rt d caches
   let row ← rt.fieldValues message
   pure (row,caches)

def messageRows : List M → Caches D F P → Except E (List R)
 | [],_=>.ok []
 | message::messages,caches=>do
  let (row,caches) ← messageRow rt message caches
  let rows ← messageRows messages caches
  pure (row::rows)

def startCaches (last:Option D) : Caches D F P :=
 ⟨fun i=>last.filter fun d=>i=rt.descriptorId d,fun _=>none⟩

def arrowTable (messages:List M) : Except E (List R):=messageRows rt messages (startCaches rt none)

def drain (batchSize:ℕ) (last:Option D) (messages:List M) : List (List R)×Option E :=
 if _h:messages.take batchSize=[] then ([],none)
 else
  match messageRows rt (messages.take batchSize) (startCaches rt last) with
  | .error e=>([],some e)
  | .ok rows=>
   let rest:=drain batchSize ((messages.take batchSize).getLast?.bind rt.descriptor) (messages.drop batchSize)
   (rows::rest.1,rest.2)
termination_by messages.length
decreasing_by
 simp only [take_eq_nil_iff,not_or] at _h
 have:=length_pos_iff.2 _h.2
 simp only [length_drop]
 omega

def arrowRecordBatchReader (batchSize:ℕ) (messages:List M) : List (List R)×Option E :=
 drain rt batchSize none messages

def rowAlone (message:M) : Except E R:=(messageRow rt message (startCaches rt none)).map Prod.fst

def Converts (message:M) (row:R) : Prop:=rowAlone rt message=.ok row

def Indexed (protos:FieldProtos F P) : Prop:=∀i f names,protos i=some (f,names) → names=rt.fieldsByName f

/-- How a validation ends where nothing is kept. -/
def outcome : Validation F P E → Except E Unit
 | .done result=>result
 | .read file name next=>
  match rt.fieldsByName file name with
  | none=>.error (rt.missingDefinition name)
  | some proto=>outcome (next proto)

def Passes (d:D) : Prop:=outcome rt (rt.validateMessageDescriptor d)=.ok ()

structure Sound (caches:Caches D F P) : Prop where
 passed : ∀i d,caches.validatedDescriptors i=some d → Passes rt d
 indexed : Indexed rt caches.fieldProtos

variable {rt} {caches:Caches D F P} {message:M}
omit [DecidableEq D] in
lemma Indexed.fileIndex {protos:FieldProtos F P} (h:Indexed rt protos) (file:F) :
 (fileIndex rt file protos).1=rt.fieldsByName file ∧ Indexed rt (fileIndex rt file protos).2 := by
 have hu:Indexed rt (Function.update protos (rt.fileId file) (some (file,rt.fieldsByName file))):=by
  intro i f names hi
  by_cases he : i=rt.fileId file
  · subst he
    rw [Function.update_self] at hi
    cases hi
    rfl
  · rw [Function.update_of_ne he] at hi
    exact h i f names hi
 unfold ArrowBatches.fileIndex
 split
 · next cached byName hc=>
   split_ifs with hf
   · subst hf
     exact ⟨h _ _ _ hc,h⟩
   · exact ⟨rfl,hu⟩
 · exact ⟨rfl,hu⟩

omit [DecidableEq D] in
/-- A validation ends alike for every table of parsed files. -/
theorem validate_outcome (v:Validation F P E) {protos:FieldProtos F P} (h:Indexed rt protos) :
 (∃e,outcome rt v=.error e ∧ validate rt v protos=.error e) ∨
 ∃p,Indexed rt p ∧ outcome rt v=.ok () ∧ validate rt v protos=.ok p := by
 induction v generalizing protos with
 | done result=>
  cases result with
  | error e=>exact .inl ⟨e,rfl,rfl⟩
  | ok _=>exact .inr ⟨protos,h,rfl,rfl⟩
 | read file name next ih=>
  obtain ⟨h1,h2⟩:=h.fileIndex file
  simp only [validate,outcome,h1]
  cases rt.fieldsByName file name with
  | none=>exact .inl ⟨_,rfl,rfl⟩
  | some proto=>exact ih proto h2

omit [DecidableEq D] [DecidableEq F] in
lemma sound_start {last:Option D} (h:∀d∈last,Passes rt d) : Sound rt (startCaches rt last) := by
 refine ⟨fun i d hd=>?_,fun i f names hi=>by cases hi⟩
 exact h d (Option.filter_eq_some_iff.1 hd).1

/-- What is skipped passed before, and would pass again. -/
theorem validateOnce_of_passes {d:D} (hp:Passes rt d) (h:Sound rt caches) :
 ∃c,Sound rt c ∧ validateOnce rt d caches=.ok c := by
 unfold validateOnce
 split_ifs
 · exact ⟨caches,h,rfl⟩
 · obtain ⟨e,he,-⟩|⟨p,hi,-,hv⟩:=validate_outcome (rt.validateMessageDescriptor d) h.indexed
   · exact absurd (hp.symm.trans he) (by simp)
   refine ⟨_,⟨fun i x hx=>?_,hi⟩,by rw [hv];rfl⟩
   by_cases he : i=rt.descriptorId d
   · subst he
     simp only [Function.update_self,Option.some.injEq] at hx
     exact hx ▸ hp
   · simp only [Function.update_of_ne he] at hx
     exact h.passed i x hx

lemma validateOnce_of_not_passes {d:D} (hp:¬ Passes rt d) :
 ∃e,∀caches,Sound rt caches → validateOnce rt d caches=.error e := by
 cases ho : outcome rt (rt.validateMessageDescriptor d) with
 | ok _=>exact absurd ho hp
 | error e=>
  refine ⟨e,fun caches h=>?_⟩
  rw [validateOnce,if_neg fun hc=>hp (h.passed _ d hc)]
  rcases validate_outcome (rt.validateMessageDescriptor d) h.indexed with ⟨e',he,hv⟩|⟨p,-,hk,-⟩
  · rw [hv,←Except.error.inj (ho.symm.trans he)]
    rfl
  · exact absurd (ho.symm.trans hk) (by simp)

/-- No cache decides a conversion. -/
theorem messageRow_alone (h:Sound rt caches) (message:M) :
 (∃e,rowAlone rt message=.error e ∧ messageRow rt message caches=.error e) ∨
 ∃row c,rowAlone rt message=.ok row ∧ messageRow rt message caches=.ok (row,c) ∧ Sound rt c ∧
  ∀d∈rt.descriptor message,Passes rt d := by
 have hs:Sound rt (startCaches rt none):=sound_start (by simp)
 unfold rowAlone messageRow
 cases rt.descriptor message with
 | none=>exact .inl ⟨_,rfl,rfl⟩
 | some d=>
  dsimp only
  by_cases hn : rt.fullName d≠rt.sourceMessage
  · rw [if_pos hn,if_pos hn]
    exact .inl ⟨_,rfl,rfl⟩
  · rw [if_neg hn,if_neg hn]
    by_cases hp : Passes rt d
    · obtain ⟨c,hc,hv⟩:=validateOnce_of_passes hp h
      obtain ⟨c',-,hv'⟩:=validateOnce_of_passes hp hs
      rw [hv,hv']
      cases hf : rt.fieldValues message with
      | error e=>exact .inl ⟨e,rfl,rfl⟩
      | ok row=>exact .inr ⟨row,c,rfl,rfl,hc,by simpa using hp⟩
    · obtain ⟨e,he⟩:=validateOnce_of_not_passes hp
      rw [he _ h,he _ hs]
      exact .inl ⟨e,rfl,rfl⟩

variable {messages:List M} {rows:List R}
lemma messageRows_eq (h:Sound rt caches) (messages:List M) :
 messageRows rt messages caches=messages.mapM (rowAlone rt) := by
 induction messages generalizing caches with
 | nil=>rfl
 | cons m messages ih=>
  rw [mapM_cons,messageRows]
  rcases messageRow_alone h m with ⟨e,he,hc⟩ | ⟨row,c,hr,hc,hs,-⟩
  · rw [he,hc]
    rfl
  · rw [hr,hc]
    change (messageRows rt messages c >>= _)=_
    rw [ih hs]
    rfl

variable {batchSize:ℕ} {last:Option D}
lemma drain_batch (hs:0<batchSize) (hne:messages≠[]) (hl:∀d∈last,Passes rt d)
 (hr:Forall₂ (Converts rt) (messages.take batchSize) rows) :
 ∃next,(∀d∈next,Passes rt d) ∧ drain rt batchSize last messages=
  (rows::(drain rt batchSize next (messages.drop batchSize)).1,(drain rt batchSize next (messages.drop batchSize)).2) := by
 have hok:=(messageRows_eq (sound_start hl) _).trans (mapM_ok.2 hr)
 refine ⟨(messages.take batchSize).getLast?.bind rt.descriptor,fun d hd=>?_,?_⟩
 · obtain ⟨m,hm,hd⟩:=Option.bind_eq_some_iff.1 hd
   obtain ⟨row,hc⟩:=exists_mapM_ok.1 ⟨rows,mapM_ok.2 hr⟩ m (mem_of_getLast? hm)
   rcases messageRow_alone (sound_start hl) m with ⟨e,he,-⟩ | ⟨-,-,-,-,-,hp⟩
   · exact absurd (hc.symm.trans he) (by simp)
   · exact hp d hd
 · rw [drain,dif_neg (by simp [Nat.ne_of_gt hs,hne]),hok]

lemma drain_ok (hs:0<batchSize) (hl:∀d∈last,Passes rt d) (hr:Forall₂ (Converts rt) messages rows) :
 ∃batches,drain rt batchSize last messages=(batches,none) ∧ batches.flatten=rows ∧ (∀b∈batches,b≠[]) ∧
  ∀b∈batches.dropLast,b.length=batchSize := by
 induction hn : messages.length using Nat.strongRecOn generalizing messages rows last with
 | _ n ih=>
  by_cases hne : messages=[]
  · subst hne
    cases hr
    exact ⟨[],by rw [drain,dif_pos take_nil],rfl,by simp,by simp⟩
  · obtain ⟨next,hnext,hd⟩:=drain_batch hs hne hl (forall₂_take batchSize hr)
    have hpos:=length_pos_iff.2 hne
    have hlen:=hr.length_eq
    obtain ⟨bs,hb,hfl,hbn,hbl⟩:=ih _ (by rw [length_drop];omega) hnext (forall₂_drop batchSize hr) rfl
    refine ⟨rows.take batchSize::bs,by rw [hd,hb],by rw [flatten_cons,hfl,take_append_drop],?_,?_⟩
    · refine forall_mem_cons.2 ⟨?_,hbn⟩
      rw [←length_pos_iff,length_take]
      omega
    · cases bs with
      | nil=>simp
      | cons b bs=>
       rw [dropLast_cons_of_ne_nil (cons_ne_nil _ _)]
       refine forall_mem_cons.2 ⟨?_,hbl⟩
       have hbp:=length_pos_iff.2 (hbn b mem_cons_self)
       have hfull:=congrArg length hfl
       rw [flatten_cons,length_append,length_drop] at hfull
       rw [length_take]
       omega

lemma drain_error {m:M} {e:E} (post:List M) (hs:0<batchSize) (hl:∀d∈last,Passes rt d)
 (hr:Forall₂ (Converts rt) messages rows) (he:rowAlone rt m=.error e) :
 ∃batches,drain rt batchSize last (messages++m::post)=(batches,some e) ∧
  batches.length=messages.length/batchSize ∧ (∀b∈batches,b.length=batchSize) ∧ batches.flatten<+:rows := by
 induction hn : messages.length using Nat.strongRecOn generalizing messages rows last with
 | _ n ih=>
  have hlen:=hr.length_eq
  by_cases hi : messages.length<batchSize
  · obtain ⟨k,hk⟩:=Nat.exists_eq_add_of_lt hi
    have ht:(messages++m::post).take batchSize=messages++m::post.take k:=by
     rw [hk,Nat.add_assoc,take_length_add_append]
     rfl
    refine ⟨[],?_,by rw [←hn,Nat.div_eq_of_lt hi];rfl,by simp, nil_prefix⟩
    rw [drain,dif_neg (by simp [ht]),ht,messageRows_eq (sound_start hl),mapM_append,mapM_ok.2 hr,mapM_cons,he]
    rfl
  · have hle:=Nat.not_lt.1 hi
    have ht:(messages++m::post).take batchSize=messages.take batchSize:=take_append_of_le_length hle
    have hdr:(messages++m::post).drop batchSize=messages.drop batchSize++m::post:=drop_append_of_le_length hle
    obtain ⟨next,hnext,hd⟩:=drain_batch hs (by simp) hl (ht ▸ forall₂_take batchSize hr)
    obtain ⟨bs,hb,hbl,hbs,hpre⟩:=ih _ (by rw [length_drop];omega) hnext (forall₂_drop batchSize hr) rfl
    rw [hdr,hb] at hd
    refine ⟨_,hd,?_,forall_mem_cons.2 ⟨by rw [length_take];omega,hbs⟩,?_⟩
    · rw [length_cons,hbl,length_drop,←hn,Nat.div_eq_sub_div hs hle]
    · rw [flatten_cons]
      have ha:=(prefix_append_right_inj (rows.take batchSize)).2 hpre
      rwa [take_append_drop] at ha

/-- A row of a table comes from a message with a descriptor that the validator of the dataset accepts. -/
theorem accepted_of_arrowTable {rt:Runtime D F P M R GoError} {defaultValue:FieldDescriptor → String}
 {dataset:DatasetSchema} {described:D → Descriptor}
 (hv:∀d,outcome rt (rt.validateMessageDescriptor d)=
  PythonDescriptor.validateMessageDescriptor defaultValue dataset (described d))
 (h:arrowTable rt messages=.ok rows) : ∀m∈messages,∃d,rt.descriptor m=some d ∧
  PythonDescriptor.validateMessageDescriptor defaultValue dataset (described d)=.ok () := by
 intro m hm
 have hs:Sound rt (startCaches rt none):=sound_start (by simp)
 rw [arrowTable,messageRows_eq hs] at h
 obtain ⟨row,hc⟩:=exists_mapM_ok.1 ⟨rows,h⟩ m hm
 rcases messageRow_alone hs m with ⟨e,he,-⟩|⟨-,-,-,-,-,hp⟩
 · exact absurd (hc.symm.trans he) (by simp)
 cases hd : rt.descriptor m with
 | none=>
  rw [rowAlone,messageRow,hd] at hc
  cases hc
 | some d=>exact ⟨d,rfl,(hv d).symm.trans (hp d hd)⟩

theorem batches_agree_with_table (rt:Runtime D F P M R E) (batchSize:ℕ) :
  (∀messages rows,1≤batchSize → arrowTable rt messages=.ok rows →
   ∃batches,arrowRecordBatchReader rt batchSize messages=(batches,none) ∧ batches.flatten=rows ∧
    (∀b∈batches,b≠[]) ∧ ∀b∈batches.dropLast,b.length=batchSize) ∧
  ∀before message rest e,1≤batchSize → (∀m∈before,∃row,rowAlone rt m=.ok row) → rowAlone rt message=.error e →
   arrowTable rt (before++message::rest)=.error e ∧
   ∃batches rows,arrowRecordBatchReader rt batchSize (before++message::rest)=(batches,some e) ∧
    batches.length=before.length/batchSize ∧ (∀b∈batches,b.length=batchSize) ∧
    Forall₂ (fun m row=>rowAlone rt m=.ok row) before rows ∧ batches.flatten<+:rows := by
 have hn:∀d∈(none:Option D),Passes rt d := by simp
 have hc:=messageRows_eq (sound_start hn)
 refine ⟨fun messages rows hs ho=>drain_ok hs hn (mapM_ok.1 ((hc messages).symm.trans ho)),?_⟩
 intro before message rest e hs hb he
 obtain ⟨rows,hm⟩:=exists_mapM_ok.2 hb
 have hr:=mapM_ok.1 hm
 obtain ⟨bs,hd,hl,hf,hp⟩:=drain_error rest hs hn hr he
 refine ⟨?_,bs,rows,hd,hl,hf,hr,hp⟩
 rw [arrowTable,hc,mapM_append,hm,mapM_cons,he]
 rfl

def orderRows : Runtime Unit Unit Unit ℕ ℕ String where
 sourceMessage := "shop.v1.Order"
 descriptor:=fun _=>some ()
 fullName:=fun _=>"shop.v1.Order"
 descriptorId:=fun _=>1
 validateMessageDescriptor:=fun _=>.read () "id" fun _=>.done (.ok ())
 fileId:=fun _=>2
 fieldsByName:=fun _ name=>if name="id" then some () else none
 cannotConvert:=fun _=>"cannot convert"
 missingDefinition:=id
 fieldValues:=fun id=>if id=0 then .error "id is required" else .ok id

theorem orders_in_batches :
  (∃batches,arrowRecordBatchReader orderRows 2 [1,2,3]=(batches,none) ∧ batches.flatten=[1,2,3] ∧
   (∀b∈batches,b≠[]) ∧ ∀b∈batches.dropLast,b.length=2) ∧
  arrowTable orderRows [1,2,3,0,4]=.error "id is required" ∧
  ∃batches rows,arrowRecordBatchReader orderRows 2 [1,2,3,0,4]=(batches,some "id is required") ∧
   batches.length=1 ∧ (∀b∈batches,b.length=2) ∧
   Forall₂ (fun m row=>rowAlone orderRows m=.ok row) [1,2,3] rows ∧ batches.flatten<+:rows :=
 ⟨(batches_agree_with_table orderRows 2).1 _ _ (by decide) rfl,
  (batches_agree_with_table orderRows 2).2 [1,2,3] 0 [4] _ (by decide)
   (forall_mem_cons.2 ⟨⟨1,rfl⟩,forall_mem_cons.2 ⟨⟨2,rfl⟩,forall_mem_singleton.2 ⟨3,rfl⟩⟩⟩) rfl⟩
end InvariantProtocol.ArrowBatches
