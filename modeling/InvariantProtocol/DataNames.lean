import InvariantProtocol.DataIdentity
import InvariantProtocol.ProtoDescriptor
/-! Storage names. Protobuf names are ASCII, so the `unicode` predicates are the ASCII ones. -/
namespace InvariantProtocol.DataNames
open List GoResult GoText DataIdentity ProtoDescriptor

variable {name parent:String}
/-- One turn of the rune loop; `out` is the builder's content, reversed. -/
def storageRune (previous next:Option Char) (r:Char) (out:List Char) : List Char :=
 if r = '.' ∨ r = '-' then
  if out≠[] ∧ out.head?≠some '_' then '_' :: out else out
 else if r.isUpper then
  let previousIsLowerOrDigit:=previous.any fun p=>p.isLower || p.isDigit
  let nextIsLower:=next.any Char.isLower
  let previousIsUpper:=previous.any Char.isUpper
  if out≠[] ∧ (previousIsLowerOrDigit ∨ previousIsUpper ∧ nextIsLower) ∧
    out.head?≠some '_' then r.toLower :: '_' :: out
  else r.toLower::out
 else r.toLower::out

def storageRunes : Option Char → List Char → List Char → List Char
 | _,[],out=>out
 | previous,r::rest,out=>
  storageRunes (some r) rest (storageRune previous rest.head? r out)

def storageName (name:String) : String :=
 String.ofList (trimChar '_' (storageRunes none name.toList []).reverse)

example : storageName "data.v1.HTTPStatusCode" = "data_v1_http_status_code" := by decide

def exactProtoFieldName (fullName:String) : Result String :=
 if fullNameIsValid fullName ∧ nameIsValid (fullNameName fullName) then
  .ok (fullNameName fullName)
 else
  .error (.errorf "proto_full_name %q is not a valid fully-qualified protobuf field name"
   [.str fullName])

/-- The exact name a synthetic child must carry, and no storage-name source. -/
def validateSyntheticName (child expected name storageSource:String) : Result Unit :=
 rejectIf (name≠expected ∨ storageSource≠"")
  (.errorf ("synthetic "++child++" must use storage name \""++expected ++
   "\" and an empty storage_name_source") [])

def validateCompilerOwnedName (identity protoFullName name storageSource:String) :
  Result Unit:=do
 let role ← compilerIdentityRole identity
 rejectIf (protoFullName = "") (.errorf "proto_full_name must not be empty" [])
 rejectIf (name = "") (.errorf "storage name must not be empty" [])
 match role with
 | .protoField=>do
  let _ ← exactProtoFieldName protoFullName
  rejectIf (storageSource = "" ∨ ¬nameIsValid storageSource)
   (.errorf "storage_name_source %q is not an exact protobuf field name" [.str storageSource])
  rejectIf (name≠storageName storageSource)
   (.errorf ("storage name %q is not the canonical name %q derived from storage_name_source %q; "
    ++ "generated SchemaBundle names are compiler-owned")
    [.str name,.str (storageName storageSource),.str storageSource])
 | .listElement=>validateSyntheticName "list element" "element" name storageSource
 | .mapKey=>validateSyntheticName "map key" "key" name storageSource
 | .mapValue=>validateSyntheticName "map value" "value" name storageSource
 | _=>.error (.errorf "compiler identity %q has an invalid field role" [.str identity])

lemma exactProtoFieldName_ok {fullName:String} : exactProtoFieldName fullName=.ok name ↔
  fullNameIsValid fullName ∧ nameIsValid (fullNameName fullName) ∧ name=fullNameName fullName := by
 unfold exactProtoFieldName
 split_ifs with h
 · simp only [Except.ok.injEq,h,true_and]
   exact eq_comm
 · simp only [false_iff]
   rintro ⟨h1,h2,-⟩
   exact h ⟨h1,h2⟩

lemma nameIsValid_dot (h:nameIsValid name) : '.' ∉ name.toList := by
 intro hd
 unfold nameIsValid at h
 split at h
 · simp at h
 · next c cs hcs=>
   rw [hcs] at hd
   simp only [Bool.and_eq_true,all_eq_true] at h
   obtain rfl|hm:=mem_cons.mp hd
   · exact absurd h.1 (by decide)
   · exact absurd (h.2 '.' hm) (by decide)

lemma nameIsValid_ne_empty (h:nameIsValid name) : name≠"" := by
 rintro rfl
 exact absurd h (by decide)

lemma fullNameName_append (h:nameIsValid name) : fullNameName (fullNameAppend parent name)=name := by
 have hd:=nameIsValid_dot h
 by_cases hp : parent = ""
 · simp [fullNameAppend,hp,fullNameName,afterLast_eq_self '.' name hd]
 · have ha:fullNameAppend parent name=parent++String.singleton '.' ++ name:=by
    simp only [fullNameAppend,hp,if_false]
    rfl
   rw [fullNameName,ha,afterLast_append '.' parent name hd]

lemma fullNameIsValid_append (hp:fullNameIsValid parent) (h:nameIsValid name) :
 fullNameIsValid (fullNameAppend parent name) := by
 have hne:parent≠"":=by
  rintro rfl
  exact absurd hp (by decide)
 have ha:fullNameAppend parent name=parent++String.singleton '.' ++ name:=by
  simp only [fullNameAppend,hne,if_false]
  rfl
 have hs:split '.' name=[name]:=split_eq_singleton '.' name (nameIsValid_dot h)
 unfold fullNameIsValid at hp ⊢
 rw [ha,split_append,hs,all_append,hp]
 simp [h]

lemma exactProtoFieldName_append (hp:fullNameIsValid parent)
 (h:nameIsValid name) : exactProtoFieldName (fullNameAppend parent name)=.ok name :=
 exactProtoFieldName_ok.2 ⟨fullNameIsValid_append hp h,
  by rw [fullNameName_append h];exact h,(fullNameName_append h).symm⟩

lemma validateCompilerOwnedName_protoField {identity protoFullName source:String}
 (hr:compilerIdentityRole identity=.ok .protoField) :
 validateCompilerOwnedName identity protoFullName name source=.ok () ↔
  (∃exact,exactProtoFieldName protoFullName=.ok exact) ∧ protoFullName≠"" ∧ name≠"" ∧
   nameIsValid source ∧ name=storageName source := by
 simp only [validateCompilerOwnedName,bind_ok,hr,Except.ok.injEq,exists_eq_left',rejectIf_ok,
  exists_const,not_or,not_not]
 constructor
 · rintro ⟨h1,h2,exact,h3,h4,h5⟩
   exact ⟨⟨exact,h3⟩,h1,h2,h4.2,h5⟩
 · rintro ⟨⟨exact,h3⟩,h1,h2,h4,h5⟩
   exact ⟨h1,h2,exact,h3,⟨nameIsValid_ne_empty h4,h4⟩,h5⟩

/-! What a storage name keeps of the name it was derived from. -/
variable {c:Char} {xs out:List Char}
lemma filter_dropWhile (c:Char) (xs:List Char) : (xs.dropWhile (·=c)).filter (·≠c)=xs.filter (·≠c) := by
 induction xs with
 | nil=>rfl
 | cons x xs ih=>
  by_cases h : x=c
  · simpa [dropWhile_cons,h] using ih
  · simp [h]

lemma head?_dropWhile (c:Char) (xs:List Char) : (xs.dropWhile (·=c)).head?≠some c := by
 intro h
 have hn:=head?_dropWhile_not (·=c) xs
 rw [h] at hn
 simp at hn

lemma dropWhile_of_head? (h:xs.head?≠some c) : xs.dropWhile (·=c)=xs := by
 cases xs with
 | nil=>rfl
 | cons x xs=>exact dropWhile_cons_of_neg (by simpa using h)

lemma filter_trimChar (c:Char) (xs:List Char) : (trimChar c xs).filter (·≠c)=xs.filter (·≠c) := by
 rw [trimChar,filter_reverse,filter_dropWhile,filter_reverse,reverse_reverse,filter_dropWhile]

lemma trimChar_ends (c:Char) (xs:List Char) :
 (trimChar c xs).head?≠some c ∧ (trimChar c xs).getLast?≠some c := by
 refine ⟨fun h=>?_,?_⟩
 · obtain ⟨ys,hys⟩:trimChar c xs<+:xs.dropWhile (·=c):=by
    rw [←reverse_suffix,trimChar,reverse_reverse]
    exact dropWhile_suffix _
   apply head?_dropWhile c xs
   rw [←hys,head?_append,h,Option.some_or]
 · rw [trimChar,getLast?_reverse]
   exact head?_dropWhile c _

lemma trimChar_of_ends (hh:xs.head?≠some c) (hl:xs.getLast?≠some c) : trimChar c xs=xs := by
 rw [trimChar,dropWhile_of_head? hh,dropWhile_of_head? (by rwa [head?_reverse]),reverse_reverse]

def NameRune (c:Char) : Prop:=c = '.' ∨ isLetterOrDigit c=true

def StorageRune (c:Char) : Prop:=c.isLower=true ∨ c.isDigit=true ∨ c = '_'

def lettersAndDigits (xs:List Char) : List Char:=(xs.filter fun c=>c ≠ '.' ∧ c ≠ '_').map Char.toLower

lemma nameRune_of_nameIsValid (h:nameIsValid name) (hc:c∈name.toList) : NameRune c := by
 unfold nameIsValid at h
 split at h
 · cases h
 · next x xs hx=>
   rw [hx] at hc
   simp only [Bool.and_eq_true,all_eq_true] at h
   rcases mem_cons.1 hc with rfl|hm
   · exact .inr (by simp [isLetterOrDigit,h.1])
   · exact .inr (h.2 c hm)

lemma nameRune_of_fullNameIsValid (h:fullNameIsValid name) (hc:c∈name.toList) : NameRune c := by
 have hj:∀parts:List (List Char),(∀p∈parts,∀c∈p,NameRune c) → ∀c∈['.'].intercalate parts,NameRune c:=by
  intro parts hp
  induction parts with
  | nil=>simp
  | cons p parts ih=>
   cases parts with
   | nil=>simpa using hp
   | cons q parts=>
    simp only [intercalate_cons_cons,mem_append,mem_singleton]
    rintro c ((hc|rfl)|hc)
    · exact hp p (by simp) c hc
    · exact .inl rfl
    · exact ih (fun p hq=>hp p (mem_cons_of_mem _ hq)) c hc
 simp only [fullNameIsValid,split,all_map,all_eq_true] at h
 rw [←@List.intercalate_splitOn _ name.toList _ _ '.'] at hc
 exact hj _ (fun p hp c hc=>nameRune_of_nameIsValid (h p hp) (by rwa [String.toList_ofList])) c hc

lemma isUpper_iff : c.isUpper=true ↔ 65≤c.toNat ∧ c.toNat≤90 := decide_eq_true_iff

lemma isLower_iff : c.isLower=true ↔ 97≤c.toNat ∧ c.toNat≤122 :=
 Bool.and_eq_true_iff.trans (and_congr decide_eq_true_iff decide_eq_true_iff)

lemma StorageRune.not_upper (h:StorageRune c) : c.isUpper=false ∧ c ≠ '.' ∧ c ≠ '-' := by
 refine ⟨?_,?_,?_⟩
 · rw [Bool.eq_false_iff,ne_eq,isUpper_iff]
   rcases h with h|h|rfl
   · rw [isLower_iff] at h
     omega
   · simp [Char.isDigit,UInt32.le_iff_toNat_le] at h
     omega
   · decide
 · rintro rfl
   exact absurd h (by unfold StorageRune;decide)
 · rintro rfl
   exact absurd h (by unfold StorageRune;decide)

lemma toLower_of_not_upper (h:c.isUpper=false) : c.toLower=c :=
 dif_neg (of_decide_eq_false h)

lemma toLower_of_upper (h:c.isUpper=true) : c.toLower.isLower=true := by
 have hl:c.toLower=⟨c.val+32,_⟩:=dif_pos (of_decide_eq_true h)
 have hu:=isUpper_iff.1 h
 rw [isLower_iff,hl]
 change 97≤(c.val+32).toNat ∧ (c.val+32).toNat≤122
 rw [UInt32.toNat_add]
 change 65≤c.val.toNat ∧ c.val.toNat≤90 at hu
 have h32:(32:UInt32).toNat=32:=rfl
 omega

lemma NameRune.toLower (h:NameRune c) (hd:c ≠ '.') :
 StorageRune c.toLower ∧ (c.toLower = '_' ↔ c = '_') := by
 by_cases hu : c.isUpper=true
 · have hl:=toLower_of_upper hu
   refine ⟨.inl hl,fun he=>?_,?_⟩
   · rw [he] at hl
     exact absurd hl (by decide)
   · rintro rfl
     revert hu
     decide
 · rw [toLower_of_not_upper (by simpa using hu)]
   refine ⟨?_,Iff.rfl⟩
   simp only [NameRune,isLetterOrDigit,isLetter,show c.isAlpha=(c.isUpper || c.isLower) from rfl,Bool.or_eq_true,decide_eq_true_eq,hd,false_or,hu] at h
   rcases h with (h|h|h)|h
   · exact .inr (.inr h)
   · cases h
   · exact .inl h
   · exact .inr (.inl h)

/-- A turn writes the lower-case rune unless it is a dot, and at most one separator before it. -/
theorem storageRune_cases (previous next:Option Char) (h:NameRune c) (out:List Char) :
 ∃sep,(sep=[] ∨ sep=['_']) ∧
  storageRune previous next c out=(if c = '.' then [] else [c.toLower])++sep++out := by
 have hm:c ≠ '-':=by
  rintro rfl
  revert h
  simp [NameRune,isLetterOrDigit,isLetter]
 unfold storageRune
 by_cases hd : c = '.'
 · rw [if_pos (.inl hd),if_pos hd]
   split_ifs
   · exact ⟨['_'],.inr rfl,rfl⟩
   · exact ⟨[],.inl rfl,rfl⟩
 · rw [if_neg (not_or.2 ⟨hd,hm⟩),if_neg hd]
   dsimp only
   split_ifs
   · exact ⟨['_'],.inr rfl,rfl⟩
   · exact ⟨[],.inl rfl,rfl⟩
   · exact ⟨[],.inl rfl,rfl⟩

lemma storageRunes_keeps {previous:Option Char} (hx:∀c∈xs,NameRune c) (ho:∀x∈out,StorageRune x) :
 (∀x∈storageRunes previous xs out,StorageRune x) ∧
 (storageRunes previous xs out).filter (· ≠ '_')=(lettersAndDigits xs).reverse++out.filter (· ≠ '_') := by
 induction xs generalizing previous out with
 | nil=>exact ⟨ho,rfl⟩
 | cons c xs ih=>
  have hc:=hx c mem_cons_self
  obtain ⟨sep,hs,he⟩:=storageRune_cases previous xs.head? hc out
  have hsep:(∀x∈sep,StorageRune x) ∧ sep.filter (· ≠ '_')=[]:=by
   rcases hs with rfl|rfl
   · simp
   · simp [StorageRune]
  obtain ⟨hi,hf⟩:=@ih (storageRune previous xs.head? c out) (some c) (fun x h=>hx x (mem_cons_of_mem _ h)) (by
   rw [he]
   intro x hm
   simp only [mem_append] at hm
   rcases hm with (hm|hm)|hm
   · split_ifs at hm with hd
     · cases hm
     · exact mem_singleton.1 hm ▸ (hc.toLower hd).1
   · exact hsep.1 x hm
   · exact ho x hm)
  refine ⟨hi,hf.trans ?_⟩
  rw [he,filter_append,filter_append,hsep.2,append_nil,←append_assoc]
  congr 1
  by_cases hd : c = '.'
  · simp [lettersAndDigits,hd]
  · by_cases hu : c = '_'
    · simp [lettersAndDigits,hu]
    · simp [lettersAndDigits,hd,hu,(hc.toLower hd).2]

lemma storageRunes_of_storage {previous:Option Char} (hx:∀c∈xs,StorageRune c) :
 storageRunes previous xs out=xs.reverse++out := by
 induction xs generalizing previous out with
 | nil=>rfl
 | cons c xs ih=>
  obtain ⟨hu,hd,hm⟩:=(hx c mem_cons_self).not_upper
  have hs:storageRune previous xs.head? c out=c::out:=by
   simp [storageRune,hd,hm,hu,toLower_of_not_upper hu]
  rw [storageRunes,hs,ih fun x h=>hx x (mem_cons_of_mem _ h)]
  simp

theorem storageName_keeps_letters (n:String) (h:nameIsValid n ∨ fullNameIsValid n) :
  (∀c∈(storageName n).toList,c.isLower ∨ c.isDigit ∨ c = '_') ∧
  (storageName n).toList.head?≠some '_' ∧ (storageName n).toList.getLast?≠some '_' ∧
  (storageName n).toList.filter (· ≠ '_')=(n.toList.filter fun c=>c ≠ '.' ∧ c ≠ '_').map Char.toLower ∧
  storageName (storageName n)=storageName n := by
 have hn:∀c∈n.toList,NameRune c := by
  intro c hc
  rcases h with h|h
  · exact nameRune_of_nameIsValid h hc
  · exact nameRune_of_fullNameIsValid h hc
 obtain ⟨hr,hf⟩:=@storageRunes_keeps n.toList [] none hn (by simp)
 have ht:(storageName n).toList=trimChar '_' (storageRunes none n.toList []).reverse:=String.toList_ofList
 obtain ⟨hh,hl⟩:=trimChar_ends '_' (storageRunes none n.toList []).reverse
 have hs:∀c∈(storageName n).toList,StorageRune c := by
  intro c hc
  rw [ht,trimChar,mem_reverse] at hc
  have hm:=(dropWhile_sublist _).subset (mem_reverse.1 ((dropWhile_sublist _).subset hc))
  exact hr c (mem_reverse.1 hm)
 rw [← ht] at hh hl
 refine ⟨hs,hh,hl,?_,?_⟩
 · rw [ht,filter_trimChar,filter_reverse,hf]
   simp [lettersAndDigits]
 · rw [← String.toList_inj,storageName,storageRunes_of_storage hs]
   simpa using trimChar_of_ends hh hl

theorem order_line_keeps_letters :
  fullNameIsValid "shop.v1.OrderLine" ∧ (storageName "shop.v1.OrderLine").toList.filter (· ≠ '_')=
   ("shop.v1.OrderLine".toList.filter fun c=>c ≠ '.' ∧ c ≠ '_').map Char.toLower :=
 ⟨by decide,(storageName_keeps_letters "shop.v1.OrderLine" (.inr (by decide))).2.2.2.1⟩
end InvariantProtocol.DataNames
