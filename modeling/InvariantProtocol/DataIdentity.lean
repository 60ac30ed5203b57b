import InvariantProtocol.GoResult
import InvariantProtocol.GoText
import InvariantProtocol.DataSchema
/-! Compiler identities: the slash-separated paths that name the nodes of a logical tree. -/
namespace InvariantProtocol.DataIdentity
open List GoResult GoText DataSchema

def fieldIdentitySegment (number:Int32) : String := "field:"++formatInt number.toInt

def appendIdentity (parent segment:String) : String :=
 if parent = "" then segment else parent++"/"++segment

def parentCompilerIdentity (identity:String) : String :=
 match cutLast '/' identity with
 | some (parent,_)=>parent
 | none=>""

def maxFieldNumber : ℤ:=2^29-1

def segmentRole (identity segment:String) : Result SyntheticRole :=
 if segment = "list:element" then .ok .listElement
 else if segment = "map:key" then .ok .mapKey
 else if segment = "map:value" then .ok .mapValue
 else match parseInt 32 (trimStart "field:" segment) with
  | some number=>
   if startsWith "field:" segment ∧ 1≤number ∧ number ≤ maxFieldNumber ∧
     fieldIdentitySegment (Int32.ofInt number)=segment then .ok .protoField
   else .error (.errorf "compiler identity %q has invalid segment %q" [.str identity,.str segment])
  | none=>.error (.errorf "compiler identity %q has invalid segment %q" [.str identity,.str segment])

/-- One turn of the segment loop; the state is the loop index and the previous role. -/
def roleStep (identity:String) (state:ℕ×SyntheticRole) (segment:String) :
  Result (ℕ×SyntheticRole):=do
 let role ← segmentRole identity segment
 rejectIf (state.1=0 ∧ role≠.protoField)
  (.errorf "compiler identity %q must begin with a protobuf field segment" [.str identity])
 rejectIf (role≠.protoField ∧ state.2≠.protoField)
  (.errorf "compiler identity %q has a synthetic segment outside a protobuf collection field"
   [.str identity])
 rejectIf (state.2=.mapKey)
  (.errorf "compiler identity %q descends through a protobuf map key" [.str identity])
 return (state.1+1,role)

def compilerIdentityRole (identity:String) : Result SyntheticRole:=do
 let state ← loop (roleStep identity) (0,.unspecified) (split '/' identity)
 return state.2

lemma formatInt_slash (n:ℤ) : '/' ∉ (formatInt n).toList := by
 intro h
 cases n with
 | ofNat n=>
  have hd:=formatInt_isDigit n '/' h
  revert hd
  decide
 | negSucc n=>
  have hn:(formatInt (Int.negSucc n)).toList = '-' :: (formatInt (n+1 : ℕ)).toList:=by
   change ("-"++Nat.repr (n+1)).toList = '-' :: (Nat.repr (n+1)).toList
   simp
  rw [hn] at h
  obtain h|h:=mem_cons.mp h
  · revert h
    decide
  · have hd:=formatInt_isDigit (n+1) '/' h
    revert hd
    decide

lemma fieldIdentitySegment_slash (n:Int32) : '/' ∉ (fieldIdentitySegment n).toList := by
 intro h
 simp only [fieldIdentitySegment,String.toList_append,mem_append] at h
 obtain h|h:=h
 · revert h
   decide
 · exact formatInt_slash _ h

lemma fieldIdentitySegment_ne_empty (n:Int32) : fieldIdentitySegment n≠"" := by
 intro h
 have hl:=congrArg String.toList h
 simp [fieldIdentitySegment] at hl

variable {parent identity other:String} {state:ℕ×SyntheticRole} {n:Int32} {segment:String}
lemma appendIdentity_eq (h:parent≠"") :
 appendIdentity parent segment=parent++String.singleton '/' ++ segment := by
 simp only [appendIdentity,h,if_false]
 rfl

lemma appendIdentity_ne_empty (h:segment≠"") : appendIdentity parent segment≠"" := by
 by_cases hp : parent = ""
 · simpa [appendIdentity,hp] using h
 · intro he
   have hl:=congrArg String.toList he
   rw [appendIdentity_eq hp] at hl
   simp at hl

lemma parentCompilerIdentity_append (h : '/' ∉ segment.toList) :
 parentCompilerIdentity (appendIdentity parent segment)=parent := by
 by_cases hp : parent = ""
 · simp [parentCompilerIdentity,appendIdentity,hp,cutLast_eq_none '/' segment h]
 · simp only [parentCompilerIdentity,appendIdentity_eq hp,cutLast_append '/' parent segment h]

lemma appendIdentity_left_cancel {s s':String}
 (h:appendIdentity parent s=appendIdentity parent s') : s=s' := by
 by_cases hp : parent = ""
 · simpa [appendIdentity,hp] using h
 · have hl:=congrArg String.toList h
   rw [appendIdentity_eq hp,appendIdentity_eq hp] at hl
   rw [←String.toList_inj]
   simpa using hl

/-- The identities of protobuf fields, as opposed to the children of lists and maps. -/
def DenotesField (identity:String) : Prop :=
 ∃parent n,identity=appendIdentity parent (fieldIdentitySegment n)

lemma segmentRole_ok_congr {role:SyntheticRole}
 (h:segmentRole identity segment=.ok role) : segmentRole other segment=.ok role := by
 unfold segmentRole at h ⊢
 split_ifs at h ⊢ with h1 h2 h3
 · exact h
 · exact h
 · exact h
 · split at h
   · split_ifs at h ⊢ with h4
     exact h
   · exact absurd h (by simp)

variable {next:ℕ×SyntheticRole}
lemma roleStep_ok : roleStep identity state segment=.ok next ↔
  segmentRole identity segment=.ok next.2 ∧ next.1=state.1+1 ∧
   (state.1=0 → next.2=.protoField) ∧
   (next.2=.protoField ∨ state.2=.protoField) ∧ state.2≠.mapKey := by
 obtain ⟨index,role⟩:=next
 simp only [roleStep,bind_ok,rejectIf_ok,exists_const,pure_ok,Prod.mk.injEq]
 constructor
 · rintro ⟨r,hr,h1,h2,h3,hi,rfl⟩
   refine ⟨hr,hi.symm,fun h0=>?_,?_,h3⟩
   · by_contra hne
     exact h1 ⟨h0,hne⟩
   · by_contra hne
     exact h2 (not_or.mp hne)
 · rintro ⟨hr,hi,h1,h2,h3⟩
   refine ⟨role,hr,fun h=>h.2 (h1 h.1),fun h=>?_,h3,hi.symm,rfl⟩
   obtain h2|h2:=h2
   · exact h.1 h2
   · exact h.2 h2

lemma roleStep_ok_congr
 (h:roleStep identity state segment=.ok next) : roleStep other state segment=.ok next := by
 rw [roleStep_ok] at h ⊢
 exact ⟨segmentRole_ok_congr h.1,h.2⟩

variable {segments:List String}
lemma roleLoop_ok_congr (h:loop (roleStep identity) state segments=.ok next) :
 loop (roleStep other) state segments=.ok next := by
 induction segments generalizing state with
 | nil=>simpa using h
 | cons segment rest ih=>
  rw [loop_cons] at h ⊢
  obtain ⟨t,ht,hr⟩:=h
  exact ⟨t,roleStep_ok_congr ht,ih hr⟩

lemma roleLoop_index (h:loop (roleStep identity) state segments=.ok next) :
 next.1=state.1+segments.length := by
 induction segments generalizing state with
 | nil=>
  simp only [loop_nil,Except.ok.injEq] at h
  simp [h]
 | cons segment rest ih=>
  obtain ⟨t,ht,hr⟩:=(loop_cons _ _ _ _ _).1 h
  rw [ih hr,(roleStep_ok.1 ht).2.1,length_cons]
  omega

lemma compilerIdentityRole_ok {role:SyntheticRole} : compilerIdentityRole identity=.ok role ↔
  ∃index,loop (roleStep identity) (0,.unspecified) (split '/' identity) =
   .ok (index,role) := by
 simp only [compilerIdentityRole,bind_ok,pure_ok]
 constructor
 · rintro ⟨⟨index,r⟩,h,rfl⟩
   exact ⟨index,h⟩
 · rintro ⟨index,h⟩
   exact ⟨(index,role),h,rfl⟩

lemma split_length_pos (sep:Char) (s:String) : 0<(split sep s).length := by
 rw [split,length_map,length_pos_iff]
 exact splitOn_ne_nil sep s.toList

lemma compilerIdentityRole_append {r:SyntheticRole} (hp:parent≠"")
 (hs : '/' ∉ segment.toList) : compilerIdentityRole (appendIdentity parent segment)=.ok r ↔
  ∃q,compilerIdentityRole parent=.ok q ∧ segmentRole parent segment=.ok r ∧
   (r=.protoField ∨ q=.protoField) ∧ q≠.mapKey := by
 have hsp:split '/' (appendIdentity parent segment)=split '/' parent++[segment]:=by
  rw [appendIdentity_eq hp,split_append,split_eq_singleton '/' segment hs]
 simp only [compilerIdentityRole_ok,hsp,loop_append,loop_cons,loop_nil]
 constructor
 · rintro ⟨index,⟨i,q⟩,hl,t,hst,ht⟩
   obtain rfl : t=(index,r):=by simpa using ht
   obtain ⟨hr,-,-,hf,hk⟩:=roleStep_ok.1 hst
   exact ⟨q,⟨i,roleLoop_ok_congr hl⟩,segmentRole_ok_congr hr,hf,hk⟩
 · rintro ⟨q,⟨i,hl⟩,hr,hf,hk⟩
   have hi:i=0+(split '/' parent).length:=roleLoop_index hl
   have hps:=split_length_pos '/' parent
   refine ⟨i+1,(i,q),roleLoop_ok_congr hl,(i+1,r),?_,rfl⟩
   exact roleStep_ok.2 ⟨segmentRole_ok_congr hr,rfl,fun h=>absurd h (by simp only;omega),
    hf,hk⟩

lemma parseInt_fieldIdentitySegment (h:0≤n.toInt) :
 parseInt 32 (trimStart "field:" (fieldIdentitySegment n))=some n.toInt := by
 obtain ⟨k,hn⟩:=Int.eq_ofNat_of_zero_le h
 have hk:k<2^(32-1):=by
  have:=n.toInt_lt
  omega
 rw [fieldIdentitySegment,trimStart_append,hn]
 exact parseInt_formatInt 32 k hk

lemma fieldIdentitySegment_inj {m:Int32} (hm:0 ≤ m.toInt) (hn:0≤n.toInt)
 (h:fieldIdentitySegment m=fieldIdentitySegment n) : m=n := by
 have hp:=parseInt_fieldIdentitySegment hm
 rw [h,parseInt_fieldIdentitySegment hn,Option.some.injEq] at hp
 exact Int32.toInt_inj.1 hp.symm

lemma fieldIdentitySegment_ne_collection (n:Int32) :
 fieldIdentitySegment n≠"list:element" ∧ fieldIdentitySegment n≠"map:key" ∧
  fieldIdentitySegment n≠"map:value" := by
 have hh:∀s : String,s.toList.head?=some 'l' ∨ s.toList.head?=some 'm' →
   fieldIdentitySegment n≠s:=by
  intro s hs he
  rw [←he] at hs
  simp [fieldIdentitySegment] at hs
 exact ⟨hh _ (by decide),hh _ (by decide),hh _ (by decide)⟩

lemma segmentRole_field_eq {role:SyntheticRole}
 (h:segmentRole identity (fieldIdentitySegment n)=.ok role) : role=.protoField := by
 obtain ⟨hl,hk,hv⟩:=fieldIdentitySegment_ne_collection n
 simp only [segmentRole,hl,hk,hv,if_false] at h
 split at h
 · split_ifs at h
   simpa using h.symm
 · simp at h

lemma segmentRole_field (identity:String) (h1:1≤n.toInt) (h2:n.toInt ≤ maxFieldNumber) :
 segmentRole identity (fieldIdentitySegment n)=.ok .protoField := by
 obtain ⟨hl,hk,hv⟩:=fieldIdentitySegment_ne_collection n
 have hp:=parseInt_fieldIdentitySegment (show 0≤n.toInt by omega)
 have hs:startsWith "field:" (fieldIdentitySegment n)=true:=startsWith_append _ _
 simp only [segmentRole,hl,hk,hv,if_false,hp,hs,h1,h2,Int32.ofInt_toInt,and_self,if_true]

lemma segmentRole_of_append {role:SyntheticRole} (hs : '/' ∉ segment.toList)
 (h:compilerIdentityRole (appendIdentity parent segment)=.ok role) :
 segmentRole parent segment=.ok role := by
 by_cases hp : parent = ""
 · subst hp
   obtain ⟨index,hl⟩:=compilerIdentityRole_ok.1 h
   rw [appendIdentity,if_pos rfl,split_eq_singleton '/' segment hs] at hl
   obtain ⟨u,hu,hnil⟩:=(loop_cons _ _ _ _ _).1 hl
   obtain rfl : u=(index,role):=by simpa using hnil
   exact segmentRole_ok_congr (roleStep_ok.1 hu).1
 · obtain ⟨q,-,hr,-⟩:=(compilerIdentityRole_append hp hs).1 h
   exact hr

lemma segmentRole_protoField (h:segmentRole identity segment=.ok .protoField) :
 ∃n : Int32,1≤n.toInt ∧ n.toInt ≤ maxFieldNumber ∧ segment=fieldIdentitySegment n := by
 unfold segmentRole at h
 split_ifs at h
 any_goals cases h
 split at h
 · next number _=>
   split_ifs at h with hc
   obtain ⟨-,h1,h2,hs⟩:=hc
   have hn:(Int32.ofInt number).toInt=number:=by
    simp only [maxFieldNumber] at h2
    exact Int32.toInt_ofInt_of_le (by omega) (by omega)
   exact ⟨Int32.ofInt number,by omega,by omega,hs.symm⟩
 · exact absurd h (by simp)

lemma exists_cut {s:String} (h : '/' ∈ s.toList) :
 ∃p t : String,s=p++String.singleton '/' ++ t ∧ '/' ∉ t.toList := by
 obtain ⟨xs,ys,hs,hys⟩ : ∃xs ys,s.toList=xs ++ '/' :: ys ∧ '/' ∉ ys:=by
  have hr : '/' ∈ s.toList.reverse:=by simpa using h
  obtain ⟨as,bs,hab,has⟩:=eq_append_cons_of_mem hr
  refine ⟨bs.reverse,as.reverse,?_,by simpa using has⟩
  have:=congrArg reverse hab
  simpa using this
 refine ⟨String.ofList xs,String.ofList ys,?_,by simpa using hys⟩
 rw [←String.toList_inj]
 simpa using hs

lemma protoField_identity (h:compilerIdentityRole identity=.ok .protoField) :
 ∃n : Int32,1≤n.toInt ∧ n.toInt ≤ maxFieldNumber ∧
  identity=appendIdentity (parentCompilerIdentity identity) (fieldIdentitySegment n) := by
 by_cases hs : '/' ∈ identity.toList
 · obtain ⟨p,t,rfl,ht⟩:=exists_cut hs
   have hp:p≠"":=by
    rintro rfl
    obtain ⟨index,hl⟩:=compilerIdentityRole_ok.1 h
    rw [split_append,show split '/' "" = [""] by decide,singleton_append] at hl
    obtain ⟨u,hu,-⟩:=(loop_cons _ _ _ _ _).1 hl
    have hr:segmentRole "" "" = .ok u.2:=segmentRole_ok_congr (roleStep_ok.1 hu).1
    have hf:succeeds (segmentRole "" "")=false:=by decide
    rw [hr] at hf
    exact Bool.noConfusion hf
   have ha:=@appendIdentity_eq p t hp
   rw [←ha] at h ⊢
   obtain ⟨q,-,hr,-,-⟩:=(compilerIdentityRole_append hp ht).1 h
   obtain ⟨n,h1,h2,rfl⟩:=segmentRole_protoField hr
   exact ⟨n,h1,h2,by rw [parentCompilerIdentity_append ht]⟩
 · obtain ⟨index,hl⟩:=compilerIdentityRole_ok.1 h
   rw [split_eq_singleton '/' identity hs] at hl
   obtain ⟨u,hu,hnil⟩:=(loop_cons _ _ _ _ _).1 hl
   obtain rfl : u=(index,.protoField):=by simpa using hnil
   obtain ⟨n,h1,h2,hsg⟩:=segmentRole_protoField (roleStep_ok.1 hu).1
   have hpr:parentCompilerIdentity identity = "":=by
    simp [parentCompilerIdentity,cutLast_eq_none '/' identity hs]
   exact ⟨n,h1,h2,by simp [hpr,appendIdentity,←hsg]⟩

/-! The grammar of the identities. -/
inductive Segment where
 | field (number:ℕ) (low:1≤number) (high:number≤2^29-1)
 | listElement | mapKey | mapValue

def Segment.text : Segment → String
 | .field number _ _=>"field:"++formatInt number
 | .listElement=>"list:element"
 | .mapKey=>"map:key"
 | .mapValue=>"map:value"

def Segment.role : Segment → SyntheticRole
 | .field _ _ _=>.protoField
 | .listElement=>.listElement
 | .mapKey=>.mapKey
 | .mapValue=>.mapValue

/-- A list element, map key or map value stands right after a field, and nothing after a map key. -/
def Follows (previous next:SyntheticRole) : Prop :=
 (next=.protoField ∨ previous=.protoField) ∧ previous≠.mapKey

lemma Segment.text_field {number:ℕ} {low:1≤number} {high:number≤2^29-1} :
 ∃n:Int32,n.toInt=number ∧ (Segment.field number low high).text=fieldIdentitySegment n := by
 have hn:(Int32.ofInt number).toInt=number:=Int32.toInt_ofInt_of_le (by omega) (by omega)
 exact ⟨Int32.ofInt number,hn,by rw [fieldIdentitySegment,hn];rfl⟩

lemma segmentRole_iff {role:SyntheticRole} :
 segmentRole identity segment=.ok role ↔ ∃g:Segment,g.text=segment ∧ g.role=role := by
 constructor
 · intro h
   by_cases hf : role=.protoField
   · subst hf
     obtain ⟨n,h1,h2,rfl⟩:=segmentRole_protoField h
     obtain ⟨k,hk⟩:=Int.eq_ofNat_of_zero_le (show 0≤n.toInt by omega)
     simp only [maxFieldNumber] at h2
     exact ⟨.field k (by omega) (by omega),by rw [fieldIdentitySegment,hk];rfl,rfl⟩
   · unfold segmentRole at h
     split_ifs at h with hl hk hv
     · exact ⟨.listElement,hl.symm,Except.ok.inj h⟩
     · exact ⟨.mapKey,hk.symm,Except.ok.inj h⟩
     · exact ⟨.mapValue,hv.symm,Except.ok.inj h⟩
     · split at h
       · split_ifs at h
         exact absurd (Except.ok.inj h).symm hf
       · cases h
 · rintro ⟨g,rfl,rfl⟩
   cases g with
   | field number low high=>
    obtain ⟨n,hn,ht⟩:=@Segment.text_field number low high
    rw [ht]
    exact segmentRole_field identity (by omega) (by simp only [maxFieldNumber];omega)
   | listElement=>rfl
   | mapKey=>rfl
   | mapValue=>rfl

lemma Segment.text_slash (g:Segment) : '/' ∉ g.text.toList := by
 cases g with
 | field number low high=>
  obtain ⟨n,-,ht⟩:=@Segment.text_field number low high
  rw [ht]
  exact fieldIdentitySegment_slash n
 | listElement=>decide
 | mapKey=>decide
 | mapValue=>decide

lemma segments_loop {i:ℕ} (hi:i≠0) {previous role:SyntheticRole} :
 (∃j,loop (roleStep identity) (i,previous) segments=.ok (j,role)) ↔
 ∃gs:List Segment,gs.map Segment.text=segments ∧ List.IsChain Follows (previous::gs.map Segment.role) ∧
  role=(gs.map Segment.role).getLastD previous := by
 induction segments generalizing i previous with
 | nil=>simp [eq_comm]
 | cons segment rest ih=>
  simp only [loop_cons]
  constructor
  · rintro ⟨j,⟨k,r⟩,ht,hl⟩
    obtain ⟨hs,-,-,hf⟩:=roleStep_ok.1 ht
    obtain ⟨g,rfl,rfl⟩:=segmentRole_iff.1 hs
    obtain rfl:=(roleStep_ok.1 ht).2.1
    obtain ⟨gs,rfl,hc,hr⟩:=(ih (Nat.succ_ne_zero i)).1 ⟨j,hl⟩
    exact ⟨g::gs,rfl,isChain_cons_cons.2 ⟨hf,hc⟩,by rw [hr,map_cons,getLastD_cons]⟩
  · rintro ⟨gs,hm,hc,hr⟩
    cases gs with
    | nil=>cases hm
    | cons g gs=>
     obtain ⟨rfl,rfl⟩:=cons.inj hm
     obtain ⟨hf,hc⟩:=isChain_cons_cons.1 hc
     rw [map_cons,getLastD_cons] at hr
     obtain ⟨j,hj⟩:=(ih (Nat.succ_ne_zero i)).2 ⟨gs,rfl,hc,hr⟩
     exact ⟨j,(i+1,g.role),roleStep_ok.2 ⟨segmentRole_iff.2 ⟨g,rfl,rfl⟩,rfl,fun h=>absurd h hi,hf⟩,hj⟩

lemma split_texts (gs:List Segment) (h:gs≠[]) :
 split '/' identity=gs.map Segment.text ↔
  identity=String.ofList (['/'].intercalate (gs.map fun g=>g.text.toList)) := by
 constructor
 · intro hs
   have hl:identity.toList.splitOn '/'=gs.map fun g=>g.text.toList:=by
    have ht:=congrArg (map String.toList) hs
    simpa [split,Function.comp_def] using ht
   rw [←hl,intercalate_splitOn,String.ofList_toList]
 · rintro rfl
   rw [split,String.toList_ofList,splitOn_intercalate]
   · simp
   · simp only [mem_map]
     rintro _ ⟨g,-,rfl⟩
     exact g.text_slash
   · simpa using h

/-- The first turn has no segment before it, and asks for a field. -/
theorem compilerIdentityRole_grammar (identity:String) (role:SyntheticRole) :
  compilerIdentityRole identity=.ok role ↔ ∃(first:Segment) (rest:List Segment),
   identity=String.ofList (['/'].intercalate ((first::rest).map fun g=>g.text.toList)) ∧
   first.role=.protoField ∧ List.IsChain (fun g k=>Follows g.role k.role) (first::rest) ∧
   role=((first::rest).getLast (cons_ne_nil _ _)).role := by
 have hlast:∀(first:Segment) rest,(rest.map Segment.role).getLastD first.role=
   ((first::rest).getLast (cons_ne_nil _ _)).role := by
  intro first rest
  induction rest generalizing first with
  | nil=>rfl
  | cons next rest ih=>rw [map_cons,getLastD_cons,ih,getLast_cons (cons_ne_nil _ _)]
 rw [compilerIdentityRole_ok]
 constructor
 · rintro ⟨j,hl⟩
   obtain ⟨segment,rest,hs⟩:=exists_cons_of_length_pos (split_length_pos '/' identity)
   rw [hs,loop_cons] at hl
   obtain ⟨⟨k,r⟩,ht,hl⟩:=hl
   obtain ⟨hr,hk,hf,-⟩:=roleStep_ok.1 ht
   obtain ⟨g,rfl,rfl⟩:=segmentRole_iff.1 hr
   obtain rfl:=hk
   obtain ⟨gs,rfl,hc,hrole⟩:=(segments_loop Nat.one_ne_zero).1 ⟨j,hl⟩
   refine ⟨g,gs,(split_texts (g::gs) (by simp)).1 hs,hf rfl,?_,hrole.trans (hlast g gs)⟩
   exact (isChain_map Segment.role).1 hc
 · rintro ⟨g,gs,hid,hf,hc,hr⟩
   rw [(split_texts (g::gs) (by simp)).2 hid]
   obtain ⟨j,hj⟩:=(segments_loop Nat.one_ne_zero).2 ⟨gs,rfl,(isChain_map Segment.role).2 hc,hr.trans (hlast g gs).symm⟩
   rw [map_cons]
   exact ⟨j,(loop_cons _ _ _ _ _).2 ⟨(1,g.role),
    roleStep_ok.2 ⟨segmentRole_iff.2 ⟨g,rfl,rfl⟩,rfl,fun _=>hf,.inl hf,by decide⟩,hj⟩⟩
end InvariantProtocol.DataIdentity
