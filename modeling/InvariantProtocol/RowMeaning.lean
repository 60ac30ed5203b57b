import InvariantProtocol.StoredScope
import InvariantProtocol.Discriminator
namespace InvariantProtocol.RowMeaning
open ListRelations DataSchema ClickHouseSchema SqlType SqlValue SqlEval LogicalRow ClickHouseChecks
open StoredShape ClickHouseLayout StoredScope Discriminator
open List hiding keys map

variable {Q:Field → Prop} {field:Field} {fields:List Field} {oneof:String}

section

def caseOf (v:Value) (oneof:String) : ℤ :=
 match v.element (oneofCaseName oneof) with
 | some (.scalar (.int k))=>k
 | _=>0

def presentOf (v:Value) (field:Field) : Bool :=
 (((v.element field.attributes.name).bind (·.element "present")).bind asBool).getD false

variable {validJSON:List UInt8 → Bool} {v w:Value} {field:Field} {fields:List Field} {k:ℤ}
lemma caseOf_eq (h:v.element (oneofCaseName oneof)=some (integer k)) : caseOf v oneof=k := by
 simp [caseOf,h,integer]

lemma mem_caseNumbers {numbers:List UInt32} : k∈caseNumbers numbers ↔ k=0 ∨ ∃n∈numbers,k=n.toNat := by
 simp [caseNumbers,eq_comm]

lemma caseCheck_decides (hk:v.element (oneofCaseName field.attributes.oneof)=some (integer k)) :
 Decides validJSON [caseCheck field fields] v (caseOf v field.attributes.oneof ∈
   caseNumbers (memberNumbers field.attributes.oneof fields)) := by
 have hvalue:(caseCheck field fields).value validJSON v =
   some (decide (k∈caseNumbers (memberNumbers field.attributes.oneof fields))):=by
  simp [caseCheck,Check.value,hk,integer]
 rw [caseOf_eq hk]
 exact (decides_singleton hvalue).congr (by simp)

lemma selectedCheck_decides {b:Bool} (hk:v.element (oneofCaseName field.attributes.oneof)=some (integer k))
 (hw:v.element field.attributes.name=some w) (hb:w.element "present" = some (truth b)) :
 Decides validJSON [selectedCheck field] v
  (caseOf v field.attributes.oneof=(lastNumber field).toNat ↔ presentOf v field=true) := by
 have hp:presentOf v field=b:=by
  simp [presentOf,hw,hb,asBool_truth]
 have hvalue:(selectedCheck field).value validJSON v =
   some (decide (decide (k=(lastNumber field).toNat)=b)):=by
  simp [selectedCheck,Check.value,hk,integer,hw,hb,asBool_truth]
 rw [caseOf_eq hk,hp]
 refine (decides_singleton hvalue).congr ?_
 by_cases heq : k=(lastNumber field).toNat <;> cases b <;> simp [heq]

lemma decodeField_isSome {slot:Option Logical} {b:Bool}
 (hp:field.attributes.presence=.oneof) (hb:w.element "present" = some (truth b))
 (h:decodeField field w=some slot) : slot.isSome=b := by
 cases field with
 | nil=>simp [decodeField] at h
 | mk a t=>
  have hs:storedValue a t w=presentValue w:=by
   rw [storedValue,show a.presence=.oneof from hp]
  rw [decodeField,hs] at h
  cases hvalue : w.element "value" with
  | none=>simp [presentValue,hb,asBool_truth,hvalue] at h
  | some u=>
   have hpr:presentValue w=some (if b then some u else none):=by
    simp [presentValue,hb,asBool_truth,hvalue]
   rw [hpr] at h
   cases b with
   | false=>
    obtain rfl : none=slot:=by simpa using h
    rfl
   | true=>
    obtain ⟨l,-,rfl⟩:=Option.map_eq_some_iff.1 (by simpa using h)
    rfl

/-- The stored parts of a scope on which its checks depend. -/
structure ScopeStored (v:Value) (fields:List Field) : Prop where
 discriminator : ∀f∈fields,f.attributes.oneof≠"" →
  ∃k,v.element (oneofCaseName f.attributes.oneof)=some (integer k)
 member : ∀f∈fields,f.attributes.oneof≠"" → ∃w b,
  v.element f.attributes.name=some w ∧ w.element "present" = some (truth b)

lemma ScopeStored.tail (h:ScopeStored v (field::fields)) : ScopeStored v fields :=
 ⟨fun f hf=>h.discriminator f (mem_cons_of_mem _ hf),
  fun f hf=>h.member f (mem_cons_of_mem _ hf)⟩

lemma memberChecks_decides (hs:ScopeStored v (field::fields)) :
 Decides validJSON (memberChecks field) v (field.attributes.oneof≠"" →
  (caseOf v field.attributes.oneof=(lastNumber field).toNat ↔ presentOf v field=true)) := by
 unfold memberChecks
 by_cases ho : field.attributes.oneof = ""
 · rw [if_pos ho]
   exact decides_nil.congr (by simp [ho])
 · rw [if_neg ho]
   obtain ⟨k,hk⟩:=hs.discriminator field mem_cons_self ho
   obtain ⟨w,b,hw,hb⟩:=hs.member field mem_cons_self ho
   exact (selectedCheck_decides hk hw hb).congr (by simp [ho])
end

section
variable {validJSON:List UInt8 → Bool} {v:Value} {fields:List Field}
def CaseHolds (v:Value) (fields:List Field) (oneof:String) : Prop :=
 caseOf v oneof∈caseNumbers (memberNumbers oneof fields)

def MemberHolds (v:Value) (field:Field) : Prop :=
 caseOf v field.attributes.oneof=(lastNumber field).toNat ↔ presentOf v field=true

lemma caseHolds_cons (hne:oneof≠field.attributes.oneof) :
 CaseHolds v (field::fields) oneof ↔ CaseHolds v fields oneof := by
 simp [CaseHolds,memberNumbers,hne.symm]

lemma openCheck_decides (validJSON:List UInt8 → Bool) (seen:List String)
 {rest:List Field} (hs:ScopeStored v (field::rest)) :
 Decides validJSON (if opens seen field then [caseCheck field (field::rest)] else []) v
  (opens seen field → CaseHolds v (field::rest) field.attributes.oneof) := by
 by_cases ho : opens seen field
 · rw [if_pos ho]
   obtain ⟨k,hk⟩:=hs.discriminator field mem_cons_self ho.1
   exact (caseCheck_decides hk).congr (by simp [ho,CaseHolds])
 · rw [if_neg ho]
   exact decides_nil.congr (by simp [ho])

/-- The checks of a scope: each discriminator lies in its range, agrees with the presence of
every member, and every field satisfies its own checks. -/
theorem scopeChecks_decides {P:Field → Prop} (seen:List String) (hs:ScopeStored v fields)
 (hfl:∀f∈fields,∃w,v.element f.attributes.name=some w ∧
  Decides validJSON (fieldChecks f) w (P f)) :
 Decides validJSON (scopeChecks seen (fields.zip (allChecks fields))) v
  ((∀f∈fields,opens seen f → CaseHolds v fields f.attributes.oneof) ∧
   (∀f∈fields,f.attributes.oneof≠"" → MemberHolds v f) ∧ ∀f∈fields,P f) := by
 induction fields generalizing seen with
 | nil=>exact decides_nil.congr (by simp)
 | cons field rest ih=>
  obtain ⟨w,hw,hfd⟩:=hfl field mem_cons_self
  have hr:=ih (field.attributes.oneof::seen) hs.tail
   fun f hf=>hfl f (mem_cons_of_mem _ hf)
  have hfs:(rest.zip (allChecks rest)).map Prod.fst=rest:=by
   rw [allChecks_eq]
   exact map_fst_zip (by simp)
  rw [allChecks,zip_cons_cons,scopeChecks,hfs]
  have ha:=(((openCheck_decides validJSON seen hs).append
   (memberChecks_decides hs)).append (hfd.element hw)).append hr
  refine ha.congr ?_
  simp only [forall_mem_cons]
  have hc:((opens seen field → CaseHolds v (field::rest) field.attributes.oneof) ∧
    ∀f∈rest,opens (field.attributes.oneof::seen) f →
     CaseHolds v rest f.attributes.oneof) ↔
    (opens seen field → CaseHolds v (field::rest) field.attributes.oneof) ∧
     ∀f∈rest,opens seen f → CaseHolds v (field::rest) f.attributes.oneof:=by
   refine and_congr_right fun hfr=>forall₂_congr fun f hf=>?_
   by_cases heq : f.attributes.oneof=field.attributes.oneof
   · -- The oneof of the first field: its range is checked there.
     simp only [opens,heq,mem_cons_self,not_true_eq_false,and_false,false_imp_iff,true_iff]
     exact hfr
   · rw [caseHolds_cons heq]
     simp [opens,heq]
  rw [←hc]
  tauto

def members (fields:List Field) (slots:List (Option Logical)) : List (Field×Option Logical) :=
 (fields.zip slots).filter fun p=>p.1.attributes.oneof≠""

def memberOneof (p:Field×Option Logical) : String:=p.1.attributes.oneof

def memberNumber (p:Field×Option Logical) : ℕ:=(lastNumber p.1).toNat

def memberPresent (p:Field×Option Logical) : Bool:=p.2.isSome

lemma selectedNumber_eq (ho:oneof≠"") (fields:List Field)
 (slots:List (Option Logical)) : selectedNumber oneof fields slots =
  selected memberOneof memberNumber memberPresent oneof (members fields slots) := by
 rw [selectedNumber,selected,members,List.find?_filter]
 have hp:(fun p:Field×Option Logical=>
   decide (p.1.attributes.oneof=oneof ∧ p.2.isSome=true)) =
   fun p=>decide (decide (p.1.attributes.oneof≠"")=true ∧
    decide (memberOneof p=oneof ∧ memberPresent p=true)=true):=by
  funext p
  by_cases heq : p.1.attributes.oneof=oneof
  · simp [memberOneof,memberPresent,heq,ho]
  · simp [memberOneof,heq]
 rw [hp]
 rfl

variable {slots:List (Option Logical)}
lemma oneofsExclusive_iff :
 OneofsExclusive fields slots ↔ Exclusive memberOneof memberPresent (members fields slots) := by
 rw [OneofsExclusive,Exclusive,members,pairwise_filter]
 refine List.Pairwise.iff fun {p q}=>?_
 simp only [memberOneof,memberPresent,decide_eq_true_eq]
 constructor
 · intro h hp _ heq
   exact h hp heq
 · intro h hp heq
   exact h hp (heq ▸ hp) heq

lemma forall_fields (hl:slots.length=fields.length) : (∀f∈fields,Q f) ↔ ∀p∈fields.zip slots,Q p.1 := by
 have hf:(fields.zip slots).map Prod.fst=fields:=map_fst_zip hl.ge
 conv_lhs=>rw [←hf]
 exact forall_mem_map

lemma forall_members (hl:slots.length=fields.length) : (∀f∈fields,f.attributes.oneof≠"" → Q f) ↔
  ∀p∈members fields slots,Q p.1 := by
 rw [forall_fields hl]
 simp [members,mem_filter]

lemma members_numbered (hok:ScopeOk fields) (hl:slots.length=fields.length) :
 Numbered memberOneof memberNumber (members fields slots) where
 pos:=by
  refine (forall_members (Q := fun f=>(lastNumber f).toNat≠0) hl).1 fun f hf ho=>?_
  have hz:=(hok.member f hf ho).2.1
  intro heq
  exact hz (UInt32.toNat_inj.1 (by simpa using heq))
 distinct:=by
  have hfs:(fields.zip slots).map Prod.fst=fields:=map_fst_zip hl.ge
  have hn:=hok.numbers
  rw [←hfs,pairwise_map] at hn
  rw [members,pairwise_filter]
  refine hn.imp fun {p q} h hp _ heq hnm=>?_
  exact h (by simpa using hp) heq (UInt32.toNat_inj.1 hnm)

lemma agrees_members (hl:slots.length=fields.length)
 (hpr:∀p∈members fields slots,memberPresent p=presentOf v p.1) :
 ((∀f∈fields,opens [] f → CaseHolds v fields f.attributes.oneof) ∧
  ∀f∈fields,f.attributes.oneof≠"" → MemberHolds v f) ↔
 Agrees memberOneof memberNumber memberPresent (caseOf v) (members fields slots) := by
 have hc:∀oneof,oneof≠"" → (CaseHolds v fields oneof ↔ caseOf v oneof=0 ∨
   ∃q∈members fields slots,memberOneof q=oneof ∧ caseOf v oneof=memberNumber q):=by
  intro oneof ho
  rw [CaseHolds,mem_caseNumbers]
  refine or_congr_right ?_
  have hfl:(∃n∈memberNumbers oneof fields,caseOf v oneof=n.toNat) ↔
    ∃f∈fields,f.attributes.oneof=oneof ∧ caseOf v oneof=(lastNumber f).toNat:=by
   simp only [memberNumbers,mem_map,mem_filter,decide_eq_true_eq]
   constructor
   · rintro ⟨n,⟨f,⟨hf,heq⟩,rfl⟩,hk⟩
     exact ⟨f,hf,heq,hk⟩
   · rintro ⟨f,hf,heq,hk⟩
     exact ⟨_,⟨f,⟨hf,heq⟩,rfl⟩,hk⟩
  rw [hfl]
  -- The fields of a oneof are its members, with or without their slots.
  have hm:=(forall_members (Q := fun f=>
   ¬(f.attributes.oneof=oneof ∧ caseOf v oneof=(lastNumber f).toNat)) hl)
  constructor
  · rintro ⟨f,hf,heq,hk⟩
    by_contra hn
    refine hm.2 (fun p hp hh=>hn ⟨p,hp,hh⟩) f hf (heq ▸ ho) ⟨heq,hk⟩
  · rintro ⟨p,hp,heq,hk⟩
    by_contra hn
    exact hm.1 (fun f hf _ hh=>hn ⟨f,hf,hh⟩) p hp ⟨heq,hk⟩
 simp only [opens,not_mem_nil,not_false_eq_true,and_true]
 rw [forall_members (Q := fun f=>CaseHolds v fields f.attributes.oneof) hl,
  forall_members (Q := fun f=>MemberHolds v f) hl,←forall₂_and]
 refine forall₂_congr fun p hp=>and_congr ?_ ?_
 · exact hc _ (by simpa using (List.mem_filter.1 hp).2)
 · rw [MemberHolds,←hpr p hp]
   rfl

lemma scopeAgrees_iff (hs:ScopeStored v fields) (hl:slots.length=fields.length)
 (hne:fields.isEmpty=false) :
 scopeAgrees fields slots v=true ↔ ∀p∈members fields slots,caseOf v (memberOneof p) =
  selected memberOneof memberNumber memberPresent (memberOneof p) (members fields slots) := by
 have hn:scopeAgrees fields slots v=true ↔ ∀f∈fields,f.attributes.oneof≠"" →
   v.element (oneofCaseName f.attributes.oneof) =
    some (integer (selectedNumber f.attributes.oneof fields slots)):=by
  simp [scopeAgrees,hne,oneofNames,and_imp]
 rw [hn]
 refine Iff.trans ?_ (forall_members (Q := fun f=>caseOf v f.attributes.oneof =
  selected memberOneof memberNumber memberPresent f.attributes.oneof (members fields slots)) hl)
 refine forall₂_congr fun f hf=>forall_congr' fun ho=>?_
 obtain ⟨k,hk⟩:=hs.discriminator f hf ho
 rw [hk,caseOf_eq hk,selectedNumber_eq ho]
 simp [integer]

lemma decoded_present (hok:ScopeOk fields) (hs:ScopeStored v fields)
 (hsl:decodeFields fields v=some slots) : ∀p∈members fields slots,memberPresent p=presentOf v p.1 := by
 intro p hp
 obtain ⟨hz,ho⟩:=List.mem_filter.1 hp
 have ho:p.1.attributes.oneof≠"":=by simpa using ho
 obtain ⟨w,hw,hst⟩:=(List.forall₂_iff_zip.1 (decodeFields_eq_some.1 hsl)).2 hz
 have hf:p.1∈fields:=(of_mem_zip hz).1
 obtain ⟨w',b,hw',hb⟩:=hs.member p.1 hf ho
 rw [hw] at hw'
 cases hw'
 have hsm:=decodeField_isSome (hok.member p.1 hf ho).1 hb hst
 simpa [memberPresent,presentOf,hw,hb,asBool_truth] using hsm

lemma forall_decodes : (∀f∈fields,∃w,v.element f.attributes.name=some w ∧
  ∃slot,decodeField f w=some slot ∧ ValidField validJSON f slot) ↔
 ∃slots,decodeFields fields v=some slots ∧ ValidFields validJSON fields slots := by
 induction fields with
 | nil=>simp [decodeFields,ValidFields]
 | cons field rest ih=>
  rw [forall_mem_cons,ih]
  constructor
  · rintro ⟨⟨w,hw,slot,hsl,hv⟩,slots,hs,hr⟩
    exact ⟨slot::slots,by simp [decodeFields,hw,hsl,hs],hv,hr⟩
  · rintro ⟨slots,hs,hv⟩
    simp only [decodeFields,Option.bind_eq_bind,Option.bind_eq_some_iff,Option.some.injEq]
     at hs
    obtain ⟨w,hw,slot,hsl,rest',hr,rfl⟩:=hs
    exact ⟨⟨w,hw,slot,hsl,hv.1⟩,rest',hr,hv.2⟩

lemma decodeScope_eq_some {l:Logical} : decodeScope fields v=some l ↔
 ∃slots,decodeFields fields v=some slots ∧ scopeAgrees fields slots v=true ∧
  l=.message slots := by
 simp only [decodeScope,Option.bind_eq_bind,Option.bind_eq_some_iff]
 refine exists_congr fun slots=>and_congr_right fun _=>?_
 by_cases ha : scopeAgrees fields slots v=true
 · simp [ha,eq_comm]
 · simp [ha]

lemma decodeScope_valid_iff : (∃l,decodeScope fields v=some l ∧ ValidMessage validJSON fields l) ↔
  ∃slots,decodeFields fields v=some slots ∧ scopeAgrees fields slots v=true ∧
   ValidFields validJSON fields slots ∧ OneofsExclusive fields slots := by
 constructor
 · rintro ⟨l,hl,hv⟩
   obtain ⟨slots,hs,ha,rfl⟩:=decodeScope_eq_some.1 hl
   obtain ⟨_,heq,hv,hex⟩:=hv
   cases heq
   exact ⟨slots,hs,ha,hv,hex⟩
 · rintro ⟨slots,hs,ha,hv,hex⟩
   exact ⟨.message slots,decodeScope_eq_some.2 ⟨slots,hs,ha,rfl⟩,slots,rfl,hv,
    hex⟩

/-- The checks of a message hold exactly if its stored form decodes to a valid one. -/
theorem tableChecks_decides (hok:ScopeOk fields)
 (hv:admits (tupleOf (tableColumns fields)) v=true) (hst:ScopeStored v fields)
 (hfl:∀f∈fields,∀w,admits (fieldColumn f) w=true →
  Decides validJSON (fieldChecks f) w (∃slot,decodeField f w=some slot ∧ ValidField validJSON f slot)) :
 Decides validJSON (tableChecks fields) v
  (∃l,decodeScope fields v=some l ∧ ValidMessage validJSON fields l) := by
 unfold tableChecks structChecks
 cases hem : fields.isEmpty with
 | true=>
  obtain ⟨b,hb⟩:=unit_element hok hv hem
  obtain rfl:=List.isEmpty_iff.1 hem
  have hvalue:(Check.element unitName .isFalse).value validJSON v=some !b:=by
   simp [Check.value,hb,truth]
  refine (decides_singleton hvalue).congr ?_
  rw [decodeScope_valid_iff]
  simp [decodeFields,scopeAgrees,oneofNames,hb,ValidFields,OneofsExclusive,truth]
 | false=>
  have hch:∀f∈fields,∃w,v.element f.attributes.name=some w ∧
    Decides validJSON (fieldChecks f) w (∃w,v.element f.attributes.name=some w ∧
     ∃slot,decodeField f w=some slot ∧ ValidField validJSON f slot):=by
   intro f hf
   obtain ⟨w,hw,had⟩:=field_element hok hv hf
   exact ⟨w,hw,(hfl f hf w had).congr (by simp [hw])⟩
  refine (scopeChecks_decides [] hst hch).congr ?_
  rw [forall_decodes,decodeScope_valid_iff]
  have ha:∀slots,decodeFields fields v=some slots →
    (((∀f∈fields,opens [] f → CaseHolds v fields f.attributes.oneof) ∧
     ∀f∈fields,f.attributes.oneof≠"" → MemberHolds v f) ↔
    scopeAgrees fields slots v=true ∧ OneofsExclusive fields slots):=by
   intro slots hs
   have hl:slots.length=fields.length:=
    (List.Forall₂.length_eq (decodeFields_eq_some.1 hs)).symm
   rw [agrees_members hl (decoded_present hok hst hs),
    agrees_iff (members_numbered hok hl),scopeAgrees_iff hst hl hem,
    oneofsExclusive_iff]
  constructor
  · rintro ⟨hc,hm,slots,hs,hvl⟩
    obtain ⟨hag,hex⟩:=(ha slots hs).1 ⟨hc,hm⟩
    exact ⟨slots,hs,hag,hvl,hex⟩
  · rintro ⟨slots,hs,hag,hvl,hex⟩
    obtain ⟨hc,hm⟩:=(ha slots hs).2 ⟨hag,hex⟩
    exact ⟨hc,hm,slots,hs,hvl⟩
end

mutual

/-- The elements, keys and values of collections are always present, and keys are scalars. -/
def ItemsField : Field → Prop
 | .nil=>True
 | .mk _ t=>ItemsType t

def ItemsType : DataType → Prop
 | .struct _ fields=>ItemsFields fields
 | .list _ element _=>element.attributes.presence=.notApplicable ∧ ItemsField element
 | .map _ key value=>
  (key.attributes.presence=.notApplicable ∧ isComposite key.type=false ∧ ItemsField key) ∧
   value.attributes.presence=.notApplicable ∧ ItemsField value
 | _=>True

def ItemsFields : List Field → Prop
 | []=>True
 | field::rest=>ItemsField field ∧ ItemsFields rest
end

lemma itemsFields_iff : ItemsFields fields ↔ ∀f∈fields,ItemsField f := by
 induction fields with
 | nil=>simp [ItemsFields]
 | cons field rest ih=>simp [ItemsFields,ih]

variable {validJSON:List UInt8 → Bool} {v:Value} {a:FieldAttributes} {t:DataType}
lemma admits_presenceTuple {c:ColumnType} (h:admits (presenceTuple c) v=true) :
 ∃b w,v.element "present" = some (truth b) ∧ v.element "value" = some w ∧
  admits c w=true := by
 obtain ⟨w,hp,hb⟩:=@element_admits "present" _ (.base .bool) _ _ (by decide) h (by simp)
 obtain ⟨u,hvalue,ha⟩:=@element_admits "value" _ c _ _ (by decide) h (by simp)
 obtain ⟨b,rfl⟩:=admits_bool hb
 exact ⟨b,u,hp,hvalue,ha⟩

def TypeHolds (validJSON:List UInt8 → Bool) (t:DataType) (w:Value) : Prop :=
 ∃l,decodeType t w=some l ∧ ValidType validJSON t l

def FieldHolds (validJSON:List UInt8 → Bool) (field:Field) (w:Value) : Prop :=
 ∃slot,decodeField field w=some slot ∧ ValidField validJSON field slot

variable {w:Value} {cs:List Check} {b:Bool} {p:String}
lemma fieldHolds_present (h:storedValue a t v=some (some w)) :
 FieldHolds validJSON (.mk a t) v ↔ TypeHolds validJSON t w := by
 simp only [FieldHolds,TypeHolds,decodeField,h]
 constructor
 · rintro ⟨slot,hs,hv⟩
   obtain ⟨l,hl,rfl⟩:=Option.map_eq_some_iff.1 hs
   exact ⟨l,hl,hv⟩
 · rintro ⟨l,hl,hv⟩
   exact ⟨some l,by simp [hl],hv⟩

lemma fieldHolds_absent (h:storedValue a t v=some none) :
 FieldHolds validJSON (.mk a t) v ↔ a.presence≠.required := by
 have hd:decodeField (.mk a t) v=some none:=by
  simp [decodeField,h]
 constructor
 · rintro ⟨slot,hs,hv⟩
   rw [hd] at hs
   cases hs
   exact hv
 · intro ho
   exact ⟨none,hd,ho⟩

lemma ifPresent_decides {P:Prop} (hb:v.element "present" = some (truth b))
 (hw:v.element "value" = some w) (hcs:Decides validJSON cs w P) :
 Decides validJSON (cs.map .ifPresent) v (b=true → P) := by
 cases b with
 | true=>
  refine (hcs.map fun c b hc=>?_).congr (by simp)
  simp [Check.value,hb,hw,hc,asBool_truth]
 | false=>
  refine (decides_guarded fun c=>?_).congr (by simp)
  simp [Check.value,hb,asBool_truth]

lemma ifNotNull_decides {P:Prop} (hcs:v≠.null → Decides validJSON cs v P) :
 Decides validJSON (cs.map .ifNotNull) v (v≠.null → P) := by
 by_cases hn : v=.null
 · refine (decides_guarded fun c=>?_).congr (by simp [hn])
   simp [Check.value,hn]
 · refine ((hcs hn).map fun c b hc=>?_).congr (by simp [hn])
   simpa [Check.value,hn] using hc

lemma presentValue_eq (hb:v.element "present" = some (truth b)) (hw:v.element "value" = some w) :
 presentValue v=some (if b then some w else none) := by
 simp [presentValue,hb,hw,asBool_truth]

/-- Under a presence tuple, an absent value is checked only where it is required. -/
theorem fieldHolds_tuple (hs:storedValue a t v=presentValue v)
 (hb:v.element "present" = some (truth b)) (hw:v.element "value" = some w) :
 FieldHolds validJSON (.mk a t) v ↔
  (a.presence=.required → b=true) ∧ (b=true → TypeHolds validJSON t w) := by
 rw [presentValue_eq hb hw] at hs
 cases b with
 | true=>simpa using fieldHolds_present hs
 | false=>simpa using fieldHolds_absent hs

lemma presenceChecks_decides {column:ColumnType} (hok:PresenceOk a t)
 (hv:admits (presenceColumn a t column) v=true)
 (hty:∀w,admits column w=true → Decides validJSON cs w (TypeHolds validJSON t w)) :
 Decides validJSON (presenceChecks a t cs) v (FieldHolds validJSON (.mk a t) v) := by
 have hpl:storedValue a t v=some (some v) → admits column v=true →
   Decides validJSON cs v (FieldHolds validJSON (.mk a t) v):=
  fun hs ha=>(hty v ha).congr (fieldHolds_present hs).symm
 have ht:a.presence≠.required → storedValue a t v=presentValue v →
   admits (presenceTuple column) v=true →
   Decides validJSON (cs.map .ifPresent) v (FieldHolds validJSON (.mk a t) v):=by
  intro ho hs ha
  obtain ⟨b,w,hb,hw,ha⟩:=admits_presenceTuple ha
  refine (ifPresent_decides hb hw (hty w ha)).congr ?_
  rw [fieldHolds_tuple hs hb hw]
  simp [ho]
 unfold presenceColumn at hv
 unfold presenceChecks
 unfold PresenceOk at hok
 cases hp : a.presence <;> simp only [hp] at hv hok ht ⊢
 case implicit=>exact hpl (by simp [storedValue,hp]) hv
 case repeated=>exact hpl (by simp [storedValue,hp]) hv
 case map=>exact hpl (by simp [storedValue,hp]) hv
 case notApplicable=>exact hpl (by simp [storedValue,hp]) hv
 case oneof=>exact ht (by simp) (by simp [storedValue,hp]) hv
 case required=>
  have hs:storedValue a t v=presentValue v:=by simp [storedValue,hp]
  obtain ⟨b,w,hb,hw,ha⟩:=admits_presenceTuple hv
  have hr:(Check.element "present" .isTrue).value validJSON v=some b:=by
   simp [Check.value,hb,truth]
  refine ((decides_singleton hr).append
   (ifPresent_decides hb hw (hty w ha))).congr ?_
  rw [fieldHolds_tuple hs hb hw]
  simp [hp]
 case explicit=>
  by_cases hc : isComposite t=true
  · rw [if_pos hc] at hv ⊢
    exact ht (by simp) (by simp [storedValue,hp,hc]) hv
  · rw [if_neg hc] at hv ⊢
    have hs:storedValue a t v=some (if v=.null then none else some v):=by
     simp [storedValue,hp,hc]
    have ha:v≠.null → admits column v=true:=
     fun hn=>(admits_nullable.1 hv).resolve_left hn
    refine (ifNotNull_decides fun hn=>hty v (ha hn)).congr ?_
    by_cases hn : v=.null
    · rw [if_pos hn] at hs
      rw [fieldHolds_absent hs]
      simp [hn,hp]
    · rw [if_neg hn] at hs
      rw [fieldHolds_present hs]
      simp [hn]

lemma scopeStored (hok:ScopeOk fields)
 (hv:admits (tupleOf (tableColumns fields)) v=true) (hfl:∀f∈fields,MappableField f) :
 ScopeStored v fields := by
 refine ⟨fun f hf ho=>case_element hok hv hf ho,fun f hf ho=>?_⟩
 obtain ⟨w,hw,ha⟩:=field_element hok hv hf
 have hp:=(hok.member f hf ho).1
 cases f with
 | nil=>exact (hfl _ hf).elim
 | mk a t=>
  have hc:fieldColumn (.mk a t)=presenceTuple (typeColumn t):=by
   simp [fieldColumn,presenceColumn,show a.presence=.oneof from hp]
  rw [hc] at ha
  obtain ⟨b,_,hb,-,-⟩:=admits_presenceTuple ha
  exact ⟨w,b,hw,hb⟩

lemma typeHolds_struct : TypeHolds validJSON (.struct p fields) v ↔
  ∃l,decodeScope fields v=some l ∧ ValidMessage validJSON fields l := by
 refine exists_congr fun l=>and_congr (by simp [decodeType,decodeScope]) ?_
 cases l with
 | message slots=>simp [ValidType,ValidMessage]
 | _=>simp [ValidType,ValidMessage]

lemma decodeField_item (h:a.presence=.notApplicable) (w:Value) :
 (decodeField (.mk a t) w).join=decodeType t w := by
 have hd:decodeField (.mk a t) w=(decodeType t w).map some:=by
  simp [decodeField,storedValue,h]
 rw [hd]
 cases decodeType t w <;> rfl

lemma items_decode (hp:field.attributes.presence=.notApplicable) (vs:List Value) :
 (∀w∈vs,FieldHolds validJSON field w) ↔
  ∃items,vs.mapM (fun v=>(decodeField field v).join)=some items ∧
   ∀item∈items,ValidField validJSON field (some item) := by
 have hit:∀w,FieldHolds validJSON field w ↔
   ∃item,(decodeField field w).join=some item ∧ ValidField validJSON field (some item):=by
  intro w
  cases field with
  | nil=>simp [FieldHolds,decodeField]
  | mk a t=>
   rw [Field.attributes_mk] at hp
   have hs:storedValue a t w=some (some w):=by
    simp [storedValue,hp]
   rw [fieldHolds_present hs,decodeField_item hp]
   rfl
 simp only [hit,mapM_eq_some]
 induction vs with
 | nil=>simp
 | cons w vs ih=>
  rw [forall_mem_cons]
  simp only [forall₂_cons_left_iff]
  constructor
  · rintro ⟨⟨item,hd,hv⟩,hvs⟩
    obtain ⟨items,hi,hr⟩:=ih.1 hvs
    exact ⟨item::items,⟨item,items,hd,hi,rfl⟩,
     List.forall_mem_cons.2 ⟨hv,hr⟩⟩
  · rintro ⟨_,⟨item,items,hd,hi,rfl⟩,hv⟩
    obtain ⟨hv,hr⟩:=List.forall_mem_cons.1 hv
    exact ⟨⟨item,hd,hv⟩,ih.2 ⟨items,hi,hr⟩⟩

lemma decode_scalar {t:DataType} {l:Logical} (ht:isComposite t=false)
 (h:decodeType t w=some l) : ∃s,w=.scalar s ∧ l=.scalar s := by
 cases t <;> simp [isComposite] at ht <;> cases w <;> simp_all [decodeType]

lemma keys_nodup {key:Field} (hp:key.attributes.presence=.notApplicable)
 (hs:isComposite key.type=false) {ks:List Value} {keys:List Logical}
 (h:ks.mapM (fun v=>(decodeField key v).join)=some keys) : ks.Nodup ↔ keys.Nodup := by
 have hk:∀w l,(decodeField key w).join=some l → ∃s,w=.scalar s ∧ l=.scalar s:=by
  intro w l hl
  cases key with
  | nil=>simp [decodeField] at hl
  | mk a t=>
   rw [Field.attributes_mk] at hp
   rw [decodeField_item hp] at hl
   exact decode_scalar hs hl
 refine rel_nodup ⟨fun w w' l hl hl' => ?_,fun w l l' hl hl' => ?_⟩ (mapM_eq_some.1 h)
 · obtain ⟨s,rfl,rfl⟩:=hk w l hl
   obtain ⟨s',rfl,heq⟩:=hk w' _ hl'
   cases heq
   rfl
 · exact Option.some.inj (hl.symm.trans hl')

lemma nodup_iff_dedup (ks:List Value) : ks.length=ks.dedup.length ↔ ks.Nodup := by
 constructor
 · intro h
   rw [←dedup_eq_self]
   exact (dedup_sublist ks).eq_of_length h.symm
 · intro h
   rw [h.dedup]

lemma admits_bytes (h:admits (.base .string) w=true) : ∃bs,w=.scalar (.bytes bs) := by
 obtain ⟨s,rfl,hs⟩:=admits_base.1 h
 cases s with
 | bytes bs=>exact ⟨bs,rfl⟩
 | _=>simp [baseAdmits] at hs

lemma typeHolds_leaf {s:Scalar} (h:decodeType t (.scalar s)=some (.scalar s)) :
 TypeHolds validJSON t (.scalar s) ↔ ValidType validJSON t (.scalar s) := by
 simp [TypeHolds,h]

lemma unchecked_decides {s:Scalar} (h:decodeType t (.scalar s)=some (.scalar s))
 (hv:ValidType validJSON t (.scalar s)) :
 Decides validJSON [] (.scalar s) (TypeHolds validJSON t (.scalar s)) :=
 decides_nil.congr (by simpa [typeHolds_leaf h] using hv)

lemma primitive_decides {kind:PrimitiveKind} (hv:admits (.base (primitiveColumn kind)) w=true) :
 Decides validJSON (typeChecks (.primitive p kind)) w (TypeHolds validJSON (.primitive p kind) w) := by
 rw [typeChecks]
 by_cases hs : kind=.string
 · subst hs
   obtain ⟨bs,rfl⟩:=admits_bytes hv
   have hh:TypeHolds validJSON (.primitive p .string) (.scalar (.bytes bs)) ↔
     isUTF8 bs=true:=typeHolds_leaf rfl
   exact (decides_singleton (b := isUTF8 bs) rfl).congr hh.symm
 · rw [if_neg hs]
   obtain ⟨s,rfl,-⟩:=admits_base.1 hv
   exact unchecked_decides rfl (by cases kind <;> trivial)

lemma enum_decides {enum:EnumType} (hv:admits (.base .int32) w=true) :
 Decides validJSON (typeChecks (.enum p enum)) w (TypeHolds validJSON (.enum p enum) w) := by
 obtain ⟨n,rfl⟩:=admits_int32 hv
 rw [typeChecks]
 cases hc : enum.closed with
 | false=>exact unchecked_decides rfl (by simp [ValidType,hc])
 | true=>
  refine (decides_singleton (b := decide (n∈enumNumbers enum.values)) rfl).congr ?_
  rw [integer,typeHolds_leaf rfl]
  simp only [ValidType,hc,true_imp_iff,decide_eq_true_eq,mem_enumNumbers]

lemma list_decides {element:Field} {n:ℕ} (hp:element.attributes.presence=.notApplicable)
 (hv:admits (.array (fieldColumn element)) w=true) (hem:∀u,admits (fieldColumn element) u=true →
  Decides validJSON (fieldChecks element) u (FieldHolds validJSON element u)) :
 Decides validJSON (typeChecks (.list p element n)) w (TypeHolds validJSON (.list p element n) w) := by
 obtain ⟨vs,rfl,hvs⟩:=admits_array.1 hv
 rw [typeChecks]
 have hln:Decides validJSON (if n≠0 then [.hasLength n] else []) (.array vs)
   (n≠0 → vs.length=n):=by
  by_cases hn : n=0
  · rw [if_neg (by simpa using hn)]
    exact decides_nil.congr (by simp [hn])
  · rw [if_pos hn]
    exact (decides_singleton (b := decide (vs.length=n)) rfl).congr (by simp [hn])
 have hel:Decides validJSON ((fieldChecks element).map .allElements) (.array vs)
   (∀u∈vs,FieldHolds validJSON element u):=
  decides_all (fun c=>rfl) fun u hu=>hem u (hvs u hu)
 refine (hln.append hel).congr ?_
 rw [items_decode hp]
 constructor
 · rintro ⟨hn,items,hi,hvl⟩
   refine ⟨.list items,by simp [decodeType,hi],fun hf=>?_,hvl⟩
   rw [←(mapM_eq_some.1 hi).length_eq]
   exact hn hf
 · rintro ⟨l,hl,hvl⟩
   simp only [decodeType,Option.bind_eq_bind,Option.bind_eq_some_iff,Option.some.injEq] at hl
   obtain ⟨items,hi,rfl⟩:=hl
   refine ⟨fun hf=>?_,items,hi,hvl.2⟩
   rw [(mapM_eq_some.1 hi).length_eq]
   exact hvl.1 hf

lemma map_decides {key value:Field}
 (hky:key.attributes.presence=.notApplicable) (hs:isComposite key.type=false)
 (hvalue:value.attributes.presence=.notApplicable)
 (hv:admits (.map (fieldColumn key) (fieldColumn value)) w=true) (hk:∀u,admits (fieldColumn key) u=true →
  Decides validJSON (fieldChecks key) u (FieldHolds validJSON key u))
 (hvl:∀u,admits (fieldColumn value) u=true →
  Decides validJSON (fieldChecks value) u (FieldHolds validJSON value u)) :
 Decides validJSON (typeChecks (.map p key value)) w (TypeHolds validJSON (.map p key value) w) := by
 obtain ⟨ks,vs,rfl,-,hks,hvs⟩:=admits_map.1 hv
 have hd:Decides validJSON [.distinctKeys] (.map ks vs) ks.Nodup:=
  (decides_singleton (b := decide (ks.length=ks.dedup.length)) rfl).congr
   (by rw [decide_eq_true_eq,nodup_iff_dedup])
 have hkc:Decides validJSON ((fieldChecks key).map .allKeys) (.map ks vs)
   (∀u∈ks,FieldHolds validJSON key u):=
  decides_all (fun c=>rfl) fun u hu=>hk u (hks u hu)
 have hvc:Decides validJSON ((fieldChecks value).map .allValues) (.map ks vs)
   (∀u∈vs,FieldHolds validJSON value u):=
  decides_all (fun c=>rfl) fun u hu=>hvl u (hvs u hu)
 rw [typeChecks]
 refine (hd.append (hkc.append hvc)).congr ?_
 rw [items_decode hky,items_decode hvalue]
 constructor
 · rintro ⟨hn,⟨keys,hk,hvk⟩,values,hvl,hvv⟩
   exact ⟨.map keys values,by simp [decodeType,hk,hvl],
    (keys_nodup hky hs hk).1 hn,hvk,hvv⟩
 · rintro ⟨l,hl,hvd⟩
   simp only [decodeType,Option.bind_eq_bind,Option.bind_eq_some_iff,Option.some.injEq] at hl
   obtain ⟨keys,hk,values,hvl,rfl⟩:=hl
   exact ⟨(keys_nodup hky hs hk).2 hvd.1,⟨keys,hk,hvd.2.1⟩,
    values,hvl,hvd.2.2⟩

/-- At every node, the checks hold exactly if the stored value decodes to a valid one. -/
theorem fieldChecks_decides (validJSON:List UInt8 → Bool) (field:Field)
 (hm:MappableField field) (hi:ItemsField field) (hw:admits (fieldColumn field) w=true) :
 Decides validJSON (fieldChecks field) w (FieldHolds validJSON field w) := by
 induction field using Field.tree_induction generalizing w with
 | hnil=>exact hm.elim
 | hmk a t ih=>
  obtain ⟨hok,ht⟩:=hm
  refine presenceChecks_decides hok hw fun u hu=>?_
  cases t with
  | primitive p kind=>exact primitive_decides hu
  | enum p enum=>exact enum_decides hu
  | struct p fields=>
   obtain ⟨hs,hfl⟩:=ht
   have hfl:=mappableFields_iff.1 hfl
   have hi:=itemsFields_iff.1 hi
   refine (tableChecks_decides hs hu (scopeStored hs hu hfl)
    fun f hf w hw=>ih f hf (hfl f hf) (hi f hf) hw).congr typeHolds_struct.symm
  | list p element n=>
   exact list_decides hi.1 hu fun u hu=>ih element mem_cons_self ht hi.2 hu
  | map p key value=>
   exact map_decides hi.1.1 hi.1.2.1 hi.2.1 hu
    (fun u hu=>ih key mem_cons_self ht.1 hi.1.2.2 hu)
    fun u hu=>ih value (mem_cons_of_mem _ mem_cons_self) ht.2 hi.2.2 hu
  | json p kind=>
   obtain ⟨bs,rfl⟩:=admits_bytes hu
   have hh:TypeHolds validJSON (.json p kind) (.scalar (.bytes bs)) ↔
     validJSON bs=true:=typeHolds_leaf rfl
   exact (decides_singleton (b := validJSON bs) rfl).congr hh.symm
  | duration p unit=>
   obtain ⟨s,rfl,-⟩:=admits_base.1 hu
   exact unchecked_decides rfl trivial
  | uuid p=>
   obtain ⟨s,rfl,-⟩:=admits_base.1 hu
   exact unchecked_decides rfl trivial
  | timestamp p unit timezone=>
   cases u with
   | scalar s=>exact unchecked_decides rfl trivial
   | _=>simp [typeColumn,admits] at hu
  | decimal p precision scale=>
   cases u with
   | scalar s=>exact unchecked_decides rfl trivial
   | _=>simp [typeColumn,admits] at hu
  | fixedBytes p byteLength=>
   cases u with
   | scalar s=>exact unchecked_decides rfl trivial
   | _=>simp [typeColumn,admits] at hu
  | nil=>exact ht.elim
  | unset p=>exact ht.elim
end InvariantProtocol.RowMeaning
