import InvariantProtocol.ListRelations
/-! Percent-encoding of byte strings. `keep` names the bytes that stand for themselves. -/
namespace InvariantProtocol.PercentEncoding
open ListRelations
open List hiding tail

abbrev Bytes:=List UInt8

instance : LawfulBEq Bytes:=inferInstance

def percent : UInt8:=37

def slash : UInt8:=47

def hexDigit (n:UInt8) : UInt8:=if n<10 then 48+n else 55+n

def unhex (b:UInt8) : Option UInt8 :=
 if 48≤b ∧ b≤57 then some (b-48)
 else if 97≤b ∧ b≤102 then some (b-87)
 else if 65≤b ∧ b≤70 then some (b-55)
 else none

def escapeByte (keep:UInt8 → Bool) (b:UInt8) : Bytes :=
 if keep b then [b] else [percent,hexDigit (b / 16),hexDigit (b % 16)]

def escape (keep:UInt8 → Bool) (bs:Bytes) : Bytes:=bs.flatMap (escapeByte keep)

/-- `none` where a percent sign is not followed by two hexadecimal digits. -/
def unescape : Bytes → Option Bytes
 | []=>some []
 | b::rest=>
  if b=percent then
   match rest with
   | high::low::rest=>do
    let h ← unhex high
    let l ← unhex low
    let decoded ← unescape rest
    some ((16*h+l)::decoded)
   | _=>none
  else (unescape rest).map (b :: ·)

lemma escape_cons (keep:UInt8 → Bool) (b:UInt8) (bs:Bytes) :
 escape keep (b::bs)=escapeByte keep b++escape keep bs := flatMap_cons

lemma escape_append (keep:UInt8 → Bool) (xs ys:Bytes) :
 escape keep (xs++ys)=escape keep xs++escape keep ys := flatMap_append

lemma high_lt (b:UInt8) : b / 16<16 := by
 have hb:b.toNat<256:=UInt8.toNat_lt b
 rw [UInt8.lt_iff_toNat_lt,UInt8.toNat_div]
 simp only [UInt8.reduceToNat]
 omega

lemma low_lt (b:UInt8) : b % 16<16 := by
 rw [UInt8.lt_iff_toNat_lt,UInt8.toNat_mod]
 exact Nat.mod_lt _ (by decide)

lemma unhex_hexDigit (n:UInt8) (h:n<16) : unhex (hexDigit n)=some n := by
 have ha:∀k : Fin 16,unhex (hexDigit (UInt8.ofNat k))=some (UInt8.ofNat k):=by decide
 have hn:=ha ⟨n.toNat,UInt8.lt_iff_toNat_lt.1 h⟩
 simpa using hn

variable {b:UInt8} {keep:UInt8 → Bool} {bs:Bytes}
lemma unescape_cons (hb:b≠percent) (rest:Bytes) : unescape (b::rest)=(unescape rest).map (b :: ·) := by
 conv_lhs=>unfold unescape
 exact if_neg hb

lemma unescape_percent {high low h l:UInt8} (hh:unhex high=some h) (hl:unhex low=some l) (rest:Bytes) :
 unescape (percent::high::low::rest)=(unescape rest).map ((16*h+l) :: ·) := by
 rw [unescape,if_pos rfl]
 simp only [hh,hl,Option.bind_eq_bind,Option.bind_some]
 cases unescape rest <;> rfl

lemma nibbles (b:UInt8) : 16*(b / 16)+b % 16=b := by
 apply UInt8.toNat_inj.1
 have hb:b.toNat<256:=UInt8.toNat_lt b
 simp only [UInt8.toNat_add,UInt8.toNat_mul,UInt8.toNat_div,UInt8.toNat_mod,UInt8.reduceToNat]
 omega

lemma unescape_escapeByte (hk:keep percent=false) (b:UInt8) (rest:Bytes) :
 unescape (escapeByte keep b++rest)=(unescape rest).map (b :: ·) := by
 unfold escapeByte
 split
 · next hb=>
   refine unescape_cons ?_ rest
   intro heq
   rw [heq,hk] at hb
   cases hb
 · rw [cons_append,cons_append,cons_append,nil_append,
    unescape_percent (unhex_hexDigit _ (high_lt b)) (unhex_hexDigit _ (low_lt b)),nibbles]

lemma unescape_escape_append (hk:keep percent=false) (bs rest:Bytes) :
 unescape (escape keep bs++rest)=(unescape rest).map (bs ++ ·) := by
 induction bs with
 | nil=>simp [escape]
 | cons b bs ih=>
  rw [escape_cons,append_assoc,unescape_escapeByte hk,ih,Option.map_map]
  rfl

lemma unescape_escape (hk:keep percent=false) (bs:Bytes) : unescape (escape keep bs)=some bs := by
 simpa [unescape] using unescape_escape_append hk bs []

lemma escape_cons_keep (hb:keep b=true) (bs:Bytes) : escape keep (b::bs)=b::escape keep bs := by
 simp [escape,escapeByte,hb]

lemma length_le_escape (keep:UInt8 → Bool) (bs:Bytes) : bs.length≤(escape keep bs).length := by
 induction bs with
 | nil=>simp [escape]
 | cons b bs ih=>
  have hb:1≤(escapeByte keep b).length:=by
   unfold escapeByte
   split <;> simp
  rw [escape_cons,length_append,length_cons]
  omega

lemma escape_eq_self : escape keep bs=bs ↔ ∀b∈bs,keep b=true := by
 induction bs with
 | nil=>simp [escape]
 | cons b bs ih=>
  rw [forall_mem_cons,←ih]
  by_cases hb : keep b=true
  · simp [escape_cons_keep hb,hb]
  · have hln:=length_le_escape keep bs
    have hne:escape keep (b::bs)≠b::bs:=by
     intro heq
     have hl:=congrArg List.length heq
     rw [escape_cons,length_append,escapeByte,if_neg hb] at hl
     simp only [length_cons,length_nil] at hl
     omega
    simp [hne,hb]

lemma hexDigit_ne {n:UInt8} (hb:unhex b=none) (hn:n<16) : hexDigit n≠b := by
 rintro rfl
 rw [unhex_hexDigit n hn] at hb
 cases hb

lemma not_mem_escape (hb:keep b=false) (hp:b≠percent)
 (hd:unhex b=none) (bs:Bytes) : b∉escape keep bs := by
 intro hm
 obtain ⟨c,-,hc⟩:=List.mem_flatMap.1 hm
 unfold escapeByte at hc
 split at hc
 · next hk=>
   rw [←List.mem_singleton.1 hc,hb] at hk
   cases hk
 · simp only [mem_cons,not_mem_nil,or_false] at hc
   rcases hc with hc|hc|hc
   · exact hp hc
   · exact hexDigit_ne hd (high_lt c) hc.symm
   · exact hexDigit_ne hd (low_lt c) hc.symm

lemma unescape_eq_nil (h:unescape bs=some []) : bs=[] := by
 cases bs with
 | nil=>rfl
 | cons b rest=>
  unfold unescape at h
  split at h
  · split at h
    · simp [Option.bind_eq_some_iff] at h
    · cases h
  · simp at h

/-- The first decoded byte stands for itself or was written as a percent sign and two digits. -/
theorem unescape_eq_cons {decoded:Bytes} (h:unescape bs=some (b::decoded)) :
 (b≠percent ∧ ∃rest,bs=b::rest ∧ unescape rest=some decoded) ∨
  ∃high low rest,bs=percent::high::low::rest ∧
   (∃h l,unhex high=some h ∧ unhex low=some l ∧ 16*h+l=b) ∧
   unescape rest=some decoded := by
 cases bs with
 | nil=>simp [unescape] at h
 | cons c rest=>
  unfold unescape at h
  split at h
  · next hc=>
    split at h
    · next high low rest=>
      simp only [Option.bind_eq_bind,Option.bind_eq_some_iff,Option.some.injEq,List.cons.injEq] at h
      obtain ⟨x,hx,y,hy,decoded',hd,heq,rfl⟩:=h
      exact .inr ⟨high,low,rest,by rw [hc],⟨x,y,hx,hy,heq⟩,hd⟩
    · cases h
  · next hc=>
    obtain ⟨decoded',hd,heq⟩:=Option.map_eq_some_iff.1 h
    obtain ⟨rfl,rfl⟩:=List.cons.inj heq
    exact .inl ⟨hc,rest,rfl,hd⟩

variable {keep:UInt8 → Bool}
lemma not_mem_escape_of_not_mem {b:UInt8} (hp:b≠percent) (hd:unhex b=none)
 {bs:Bytes} (hb:b∉bs) : b∉escape keep bs := by
 induction bs with
 | nil=>simp [escape]
 | cons c bs ih=>
  have hne:b≠c:=ne_of_not_mem_cons hb
  rw [escape_cons,mem_append]
  refine not_or.2 ⟨?_,ih (not_mem_of_not_mem_cons hb)⟩
  unfold escapeByte
  split
  · simpa using hne
  · simp only [mem_cons,not_mem_nil,or_false,not_or]
    exact ⟨hp,(hexDigit_ne hd (high_lt c)).symm,(hexDigit_ne hd (low_lt c)).symm⟩

lemma splitOn_escape (hs:keep slash=true) (bs:Bytes) :
 (escape keep bs).splitOn slash=(bs.splitOn slash).map (escape keep) := by
 induction bs using splitOn_induction (a := slash) with
 | single xs h=>
  have hes:=@not_mem_escape_of_not_mem keep slash (by decide) (by decide) xs h
  simp [splitOn_eq_singleton h,splitOn_eq_singleton hes]
 | cut xs ys hxs ih=>
  rw [escape_append,escape_cons_keep hs,splitOn_append_cons_self,splitOn_append_cons_self,
   map_append,ih]
  have hes:=@not_mem_escape_of_not_mem keep slash (by decide) (by decide) xs hxs
  rw [splitOn_eq_singleton hxs,splitOn_eq_singleton hes]
  rfl

lemma mapM_unescape (hk:keep percent=false) (pieces:List Bytes) :
 (pieces.map (escape keep)).mapM unescape=some pieces := by
 induction pieces with
 | nil=>rfl
 | cons piece pieces ih=>simp [unescape_escape hk,ih]

lemma splitOn_intercalate_flatMap {a:UInt8} {parts:List Bytes} (hne:parts≠[]) :
 ([a].intercalate parts).splitOn a=parts.flatMap fun part=>part.splitOn a := by
 induction parts with
 | nil=>exact absurd rfl hne
 | cons part rest ih=>
  cases rest with
  | nil=>simp
  | cons next rest=>
   rw [intercalate_cons_cons,append_assoc,singleton_append,
    splitOn_append_cons_self,ih (by simp)]
   rfl

lemma unescape_eq_append {bs front rest:Bytes} (h:unescape bs=some (front++rest)) :
 ∃xs ys,bs=xs++ys ∧ unescape xs=some front ∧ unescape ys=some rest := by
 induction front generalizing bs with
 | nil=>exact ⟨[],bs,rfl,rfl,h⟩
 | cons b front ih=>
  rcases unescape_eq_cons h with ⟨hb,tail,rfl,ht⟩|⟨high,low,tail,rfl,⟨x,y,hx,hy,heq⟩,ht⟩
  · obtain ⟨xs,ys,rfl,hxs,hys⟩:=ih ht
    exact ⟨b::xs,ys,rfl,by rw [unescape_cons hb,hxs];rfl,hys⟩
  · obtain ⟨xs,ys,rfl,hxs,hys⟩:=ih ht
    exact ⟨percent::high::low::xs,ys,rfl,
     by rw [unescape_percent hx hy,hxs,heq];rfl,hys⟩

lemma front_unique {xs ys front:Bytes} {rest rest':Bytes} (hxs:unescape xs=some front)
 (hys:unescape ys=some front) (h:xs++rest=ys++rest') : xs=ys ∧ rest=rest' := by
 induction front generalizing xs ys with
 | nil=>
  rw [unescape_eq_nil hxs,unescape_eq_nil hys] at h ⊢
  exact ⟨rfl,h⟩
 | cons b front ih=>
  rcases unescape_eq_cons hxs with ⟨hb,xs',rfl,hx'⟩|⟨u,v,xs',rfl,huv,hx'⟩ <;>
   rcases unescape_eq_cons hys with ⟨hb',ys',rfl,hy'⟩|⟨u',v',ys',rfl,hu',hy'⟩
  · obtain ⟨-,h⟩:=List.cons.inj h
    obtain ⟨rfl,hr⟩:=ih hx' hy' h
    exact ⟨rfl,hr⟩
  · exact absurd (List.cons.inj h).1 hb
  · exact absurd (List.cons.inj h).1.symm hb'
  · simp only [cons_append,List.cons.injEq,true_and] at h
    obtain ⟨rfl,rfl,h⟩:=h
    obtain ⟨rfl,hr⟩:=ih hx' hy' h
    exact ⟨rfl,hr⟩
end InvariantProtocol.PercentEncoding
