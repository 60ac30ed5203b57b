import InvariantProtocol.StoredShape
namespace InvariantProtocol.ClickHouseScope
open List GoResult GoText DataSchema DataMapping CompilerState ClickHouseSchema ClickHouseText
open StoredShape

variable {field:Field} {fields:List Field} {path:String} {seenNames:GoMap String String}
structure Named (before:List Field) (seenNames:GoMap String String) : Prop where
 nulFree : ∀f∈before,NulFree f.attributes.name
 unreserved : ∀f∈before,startsWith reservedNamePrefix f.attributes.name=false
 nodup : (before.map fun f=>f.attributes.name).Nodup
 seen : ∀f∈before,∃path,seenNames.lookup f.attributes.name=some path

variable {before:List Field} {oneof:String} {group:OneofGroup} {groups:GoMap String OneofGroup}
  {topLevel:Bool} {groups':GoMap String OneofGroup}
lemma scopeName_named {names:GoMap String String}
 (hb:Named before seenNames) (h:scopeName path topLevel seenNames field=.ok names) :
 Named (before++[field]) names := by
 simp only [scopeName,bind_ok,exists_unit_ok,exists_const,rejectWhen_ok,refuse_ok,pure_ok] at h
 obtain ⟨-,hn,hr,-,hfr,rfl⟩:=h
 have hnw:field.attributes.name∉before.map fun f=>f.attributes.name:=by
  intro hm
  obtain ⟨f,hf,heq⟩:=List.mem_map.1 hm
  obtain ⟨path,hp⟩:=hb.seen f hf
  rw [←heq,hp] at hfr
  exact hfr rfl
 refine ⟨?_,?_,?_,?_⟩
 · simpa [or_imp,forall_and] using
    And.intro hb.nulFree (nulFree_of_validateIdentifier hn)
 · simpa [or_imp,forall_and] using And.intro hb.unreserved (by simpa using hr)
 · rw [map_append,map_singleton]
   exact hb.nodup.append (nodup_singleton _) (by simpa using hnw)
 · intro f hf
   by_cases heq : f.attributes.name=field.attributes.name
   · exact ⟨_,by rw [heq];exact AList.lookup_insert _⟩
   · rcases List.mem_append.1 hf with hf|hf
     · rw [AList.lookup_insert_ne heq]
       exact hb.seen f hf
     · exact absurd (congrArg (fun f=>f.attributes.name) (List.mem_singleton.1 hf)) heq

/-- A group describes the members of its oneof among the fields passed so far. -/
structure Describes (before:List Field) (oneof:String) (group:OneofGroup) : Prop where
 name : group.name=oneof
 caseName : group.caseName=oneofCaseName oneof
 nulFree : NulFree (oneofCaseName oneof)
 numbers : group.numbers=memberNumbers oneof before
 first : group.firstIndex=before.findIdx fun f=>f.attributes.oneof=oneof

structure Collected (before:List Field) (groups:GoMap String OneofGroup) : Prop where
 describes : ∀oneof g,groups.lookup oneof=some g → Describes before oneof g
 inhabited : ∀oneof g,groups.lookup oneof=some g →
  oneof≠"" ∧ ∃f∈before,f.attributes.oneof=oneof
 covers : ∀f∈before,f.attributes.oneof≠"" → ∃g,groups.lookup f.attributes.oneof=some g
 single : ∀f∈before,f.attributes.oneof = "" → f.attributes.presence≠.oneof
 member : ∀f∈before,f.attributes.oneof≠"" →
  f.attributes.presence=.oneof ∧ lastNumber f≠0 ∧ NulFree (oneofCaseName f.attributes.oneof)
 numbers : before.Pairwise fun f g=>f.attributes.oneof≠"" →
  f.attributes.oneof=g.attributes.oneof → lastNumber f≠lastNumber g

lemma memberNumbers_append (oneof:String) (fields rest:List Field) : memberNumbers oneof (fields++rest) =
  memberNumbers oneof fields++memberNumbers oneof rest := by
 simp [memberNumbers]

lemma memberNumbers_eq_nil (h:∀f∈fields,f.attributes.oneof≠oneof) : memberNumbers oneof fields=[] := by
 rw [memberNumbers,map_eq_nil_iff,filter_eq_nil_iff]
 simpa using h

lemma mem_memberNumbers {n:UInt32} :
 n∈memberNumbers oneof fields ↔ ∃f∈fields,f.attributes.oneof=oneof ∧ lastNumber f=n := by
 simp [memberNumbers,and_assoc]

lemma Describes.skip (h:Describes before oneof group)
 (hm:∃f∈before,f.attributes.oneof=oneof) (hne:field.attributes.oneof≠oneof) :
 Describes (before++[field]) oneof group := by
 refine { h with numbers := ?_,first := ?_ }
 · have hn:memberNumbers oneof [field]=[]:=memberNumbers_eq_nil (by simpa using hne)
   rw [memberNumbers_append,hn,append_nil,h.numbers]
 · have hlt:=findIdx_lt_length_of_exists
    (p := fun f : Field=>decide (f.attributes.oneof=oneof)) (by simpa using hm)
   rw [findIdx_append,if_pos hlt,h.first]

lemma Describes.add (h:Describes before field.attributes.oneof group) :
 Describes (before++[field]) field.attributes.oneof
  { group with members:=group.members++[field]
               numbers:=group.numbers++[lastNumber field] } where
 name:=h.name
 caseName:=h.caseName
 nulFree:=h.nulFree
 numbers:=by
  rw [memberNumbers_append,h.numbers]
  simp [memberNumbers]
 first:=by
  rw [findIdx_append,h.first]
  split
  · rfl
  · next hge=>
    have hle:=@List.findIdx_le_length _
     (fun f:Field=>decide (f.attributes.oneof=field.attributes.oneof)) before
    have hz:[field].findIdx (fun f=>decide (f.attributes.oneof=field.attributes.oneof))=0:=by
     simp
    omega

/-- The group a member is added to: the one on record, or a new one. -/
theorem collectMember_cases {index:ℕ}
 (h:collectMember path seenNames groups (field,index)=.ok groups') :
 (field.attributes.oneof = "" ∧ field.attributes.presence≠.oneof ∧ groups'=groups) ∨
 (field.attributes.oneof≠"" ∧ field.attributes.presence=.oneof ∧ lastNumber field≠0 ∧
  ∃group : OneofGroup,lastNumber field∉group.numbers ∧
   groups'=groups.insert field.attributes.oneof
    { group with members:=group.members++[field]
                 numbers:=group.numbers++[lastNumber field] } ∧
   (groups.lookup field.attributes.oneof=some group ∨
    groups.lookup field.attributes.oneof=none ∧
     NulFree (oneofCaseName field.attributes.oneof) ∧
     group.name=field.attributes.oneof ∧
     group.caseName=oneofCaseName field.attributes.oneof ∧ group.numbers=[] ∧
     group.firstIndex=index)) := by
 simp only [collectMember] at h
 by_cases ho : field.attributes.oneof = ""
 · rw [if_pos ho] at h
   simp only [bind_ok,rejectWhen_ok,exists_const,pure_ok] at h
   exact .inl ⟨ho,h.1,h.2.symm⟩
 · rw [if_neg ho] at h
   cases hl : groups.lookup field.attributes.oneof with
   | some group=>
    simp only [hl,bind_ok,rejectWhen_ok,exists_const,pure_ok,not_or,not_not,exists_eq_left'] at h
    obtain ⟨⟨hp,-⟩,-,hz,hn,rfl⟩:=h
    exact .inr ⟨ho,hp,hz,group,hn,rfl,.inl rfl⟩
   | none=>
    simp only [hl,bind_ok,rejectWhen_ok,refuse_ok,exists_const,pure_ok,not_or,not_not,
     exists_eq_left'] at h
    obtain ⟨⟨hp,-⟩,_,hc,-,hz,hn,rfl⟩:=h
    exact .inr ⟨ho,hp,hz,
     { name:=field.attributes.oneof,caseName:=oneofCaseName field.attributes.oneof,
       fieldPath:=joinPath path field.attributes.oneof,firstIndex:=index },
     hn,rfl,.inr ⟨rfl,nulFree_of_validateIdentifier hc,rfl,rfl,rfl,rfl⟩⟩

lemma Collected.describes_open (hb:Collected before groups) (ho:oneof≠"")
 (hgr:groups.lookup oneof=some group ∨ groups.lookup oneof=none ∧
  NulFree (oneofCaseName oneof) ∧ group.name=oneof ∧ group.caseName=oneofCaseName oneof ∧
  group.numbers=[] ∧ group.firstIndex=before.length) : Describes before oneof group := by
 rcases hgr with hgr|⟨hnn,hnl,hnm,hc,hn,hfs⟩
 · exact hb.describes _ _ hgr
 · have hfr:∀f∈before,f.attributes.oneof≠oneof:=by
    rintro f hf rfl
    obtain ⟨g,hg⟩:=hb.covers f hf ho
    rw [hnn] at hg
    cases hg
   refine ⟨hnm,hc,hnl,?_,?_⟩
   · rw [hn,memberNumbers_eq_nil hfr]
   · rw [hfs,findIdx_eq_length_of_false (by simpa using hfr)]

lemma collectMember_collected (hb:Collected before groups)
 (h:collectMember path seenNames groups (field,before.length)=.ok groups') :
 Collected (before++[field]) groups' := by
 rcases collectMember_cases h with ⟨ho,hp,rfl⟩ |
  ⟨ho,hp,hz,group,hnm,rfl,hgr⟩
 · -- Outside every oneof: the groups stay, and go on describing their members.
   refine ⟨fun o g hg=>?_,fun o g hg=>?_,?_,?_,?_,?_⟩
   · obtain ⟨hne,hm⟩:=hb.inhabited o g hg
     exact (hb.describes o g hg).skip hm (ho ▸ hne.symm)
   · obtain ⟨hne,f,hf,heq⟩:=hb.inhabited o g hg
     exact ⟨hne,f,mem_append_left _ hf,heq⟩
   · simpa [or_imp,forall_and,ho] using hb.covers
   · simpa [or_imp,forall_and,ho,hp] using hb.single
   · simpa [or_imp,forall_and,ho] using hb.member
   · refine List.pairwise_append.2 ⟨hb.numbers,pairwise_singleton _ _,?_⟩
     intro f _ g hg hne heq
     rw [List.mem_singleton.1 hg,ho] at heq
     exact absurd heq hne
 · -- A member: its group is the only one that changes.
   have hgr:=hb.describes_open ho hgr
   refine ⟨fun o g hg=>?_,fun o g hg=>?_,?_,?_,?_,?_⟩
   · by_cases heq : o=field.attributes.oneof
     · subst heq
       rw [AList.lookup_insert] at hg
       cases hg
       exact hgr.add
     · rw [AList.lookup_insert_ne heq] at hg
       exact (hb.describes o g hg).skip (hb.inhabited o g hg).2 (Ne.symm heq)
   · by_cases heq : o=field.attributes.oneof
     · exact ⟨heq ▸ ho,field,by simp,heq.symm⟩
     · rw [AList.lookup_insert_ne heq] at hg
       obtain ⟨hne,f,hf,heq⟩:=hb.inhabited o g hg
       exact ⟨hne,f,mem_append_left _ hf,heq⟩
   · intro f hf hne
     by_cases heq : f.attributes.oneof=field.attributes.oneof
     · exact ⟨_,by rw [heq];exact AList.lookup_insert _⟩
     · rw [AList.lookup_insert_ne heq]
       rcases List.mem_append.1 hf with hf|hf
       · exact hb.covers f hf hne
       · exact absurd (congrArg (fun f=>f.attributes.oneof) (List.mem_singleton.1 hf)) heq
   · simpa [or_imp,forall_and,ho] using hb.single
   · refine List.forall_mem_append.2 ⟨hb.member,?_⟩
     simpa [ho] using And.intro hp (And.intro hz hgr.nulFree)
   · refine List.pairwise_append.2 ⟨hb.numbers,pairwise_singleton _ _,?_⟩
     intro f hf g hg _ heq hn
     rw [List.mem_singleton.1 hg] at heq hn
     rw [hgr.numbers] at hnm
     exact hnm (mem_memberNumbers.2 ⟨f,hf,heq,hn⟩)

lemma zipIdx_split {before rest:List (Field×ℕ)} {item:Field×ℕ}
 (h:fields.zipIdx=before++item::rest) : item.2=(before.map Prod.fst).length := by
 have hg:fields.zipIdx[before.length]?=some item:=by
  rw [h]
  simp
 rw [List.getElem?_zipIdx] at hg
 obtain ⟨f,-,hf⟩:=Option.map_eq_some_iff.1 hg
 simp [←hf]

lemma scopeGroups_ok
 (h:scopeGroups fields path topLevel=.ok groups) : ScopeOk fields ∧ Collected fields groups := by
 simp only [scopeGroups,bind_ok] at h
 obtain ⟨seenNames,hn,hg⟩:=h
 have hnm:Named fields seenNames:=by
  refine foldlM_invariant (I := Named) (fun before field rest s t _ hs ht=>?_) ?_ hn
  · exact scopeName_named hs ht
  · exact ⟨by simp,by simp,by simp,by simp⟩
 have hc:Collected (fields.zipIdx.map Prod.fst) groups:=by
  refine foldlM_invariant (I := fun items=>Collected (items.map Prod.fst))
   (fun before item rest s t hi hs ht=>?_) ?_ hg
  · obtain ⟨field,index⟩:=item
    obtain rfl : index=(before.map Prod.fst).length:=zipIdx_split hi
    rw [map_append,map_singleton]
    exact collectMember_collected hs ht
  · exact ⟨by simp,by simp,by simp,by simp,by simp,by simp⟩
 rw [zipIdx_map_fst] at hc
 exact ⟨{ hnm with single:=hc.single,member:=hc.member,
                      numbers:=hc.numbers },hc⟩
end InvariantProtocol.ClickHouseScope
