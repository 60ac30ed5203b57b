import InvariantProtocol.SqliteMeaning
namespace InvariantProtocol.SqliteDecimal
open List DigitText SqliteExpr SqliteSchema SqliteChecks SqliteMeaning

/-- The parts of a decimal number with a fixed number of digits behind the point. -/
structure Parts (scale:ℕ) where
 negative : Bool
 whole : List Char
 fraction : List Char
 canonical : Canonical whole
 digits : Digits fraction
 length_eq : fraction.length=scale

namespace Parts

variable {scale:ℕ} (parts:Parts scale)
def magnitude : List Char:=parts.whole++if scale > 0 then '.' :: parts.fraction else []

def text : List Char:=if parts.negative then '-' :: parts.magnitude else parts.magnitude

def significant : List Char:=(parts.whole++parts.fraction).dropWhile (· = '0')

lemma significant_cases : parts.whole=['0'] ∧ parts.significant=parts.fraction.dropWhile (· = '0') ∨
  parts.whole≠['0'] ∧ parts.significant=parts.whole++parts.fraction := by
 obtain ⟨hne,-,hz|hh⟩:=parts.canonical
 · exact .inl ⟨hz,by simp [significant,hz]⟩
 · obtain ⟨c,s,hcs⟩:=exists_cons_of_ne_nil hne
   rw [hcs,List.head?_cons,Ne,Option.some.injEq] at hh
   refine .inr ⟨fun h=>hh (List.cons.inj (hcs.symm.trans h)).1,?_⟩
   simp [significant,hcs,hh]

lemma length_significant_le_iff {precision:ℕ} (hsc:scale≤precision) :
 parts.significant.length≤precision ↔
  if precision=scale then parts.whole=['0'] else parts.whole.length≤precision-scale := by
 obtain ⟨hw,hs⟩|⟨hw,hs⟩:=parts.significant_cases
 · have hle:=(dropWhile_sublist (l := parts.fraction) (· = '0')).length_le
   rw [parts.length_eq] at hle
   rw [hs,hw]
   split_ifs with h
   · simpa using hle.trans hsc
   · simp only [length_singleton]
     omega
 · have hp:=List.length_pos_iff.2 parts.canonical.1
   rw [hs,length_append,parts.length_eq]
   split_ifs with h
   · simp only [hw,iff_false]
     omega
   · omega

lemma significant_eq_nil_iff :
 parts.significant=[] ↔ parts.whole=['0'] ∧ parts.fraction=replicate scale '0' := by
 obtain ⟨hw,hs⟩|⟨hw,hs⟩:=parts.significant_cases
 · simp [hs,hw,dropWhile_eq_nil_iff,eq_replicate_iff,parts.length_eq]
 · simp [hs,hw,parts.canonical.1]

lemma nul_not_mem_magnitude : '\x00' ∉ parts.magnitude := by
 have hw : '\x00' ∉ parts.whole:=fun hm=>absurd (parts.canonical.2.1 _ hm) (by decide)
 have hf : '\x00' ∉ parts.fraction:=fun hm=>absurd (parts.digits _ hm) (by decide)
 unfold magnitude
 split_ifs <;> simp [hw,hf]

lemma nul_not_mem_text : '\x00' ∉ parts.text := by
 have hm:=parts.nul_not_mem_magnitude
 unfold text
 split_ifs <;> simp [hm]

lemma head_magnitude : parts.magnitude.head?≠some '-' := by
 obtain ⟨hne,hd,-⟩:=parts.canonical
 obtain ⟨c,s,hcs⟩:=exists_cons_of_ne_nil hne
 have hdg:=hd c (by simp [hcs])
 simp only [magnitude,hcs,cons_append,List.head?_cons,Ne,Option.some.injEq]
 rintro rfl
 exact absurd hdg (by decide)

lemma text_eq_negativeZero_iff :
 parts.text=negativeZero scale ↔ parts.negative=true ∧ parts.significant=[] := by
 have hm:parts.magnitude = '0' :: (if scale > 0 then '.' :: replicate scale '0' else []) ↔
   parts.significant=[]:=by
  rw [significant_eq_nil_iff,magnitude]
  have hl:=parts.length_eq
  split_ifs with hs
  · change parts.whole++_=['0']++_ ↔ _
    refine ⟨fun h=>?_,fun ⟨hw,hf⟩=>by rw [hw,hf]⟩
    obtain ⟨hw,hf⟩:=append_inj' h (by simp [hl])
    exact ⟨hw,(List.cons.inj hf).2⟩
  · obtain rfl : scale=0:=Nat.eq_zero_of_not_pos hs
    simp [List.length_eq_zero_iff.1 hl]
 unfold text negativeZero
 cases parts.negative with
 | true=>simpa using hm
 | false => 
  simp only [Bool.false_eq_true,if_false,false_and,iff_false]
  intro h
  exact parts.head_magnitude (by rw [h];rfl)
end Parts

/-- Canonical text of `decimal(precision, scale)`. -/
def IsDecimal (precision scale:ℕ) (v:List Char) : Prop :=
 ∃parts : Parts scale,v=parts.text ∧ parts.significant.length≤precision ∧
  ¬ (parts.negative=true ∧ parts.significant=[])

section
variable {v m w f:List Char} {scale:ℕ}
def magnitudeOf (v:List Char) : List Char :=
 if (beforeNul v).take 1=['-'] then (beforeNul v).drop 1 else v

lemma eval_magnitude (v:List Char) : magnitudeExpr.eval v=some (.text (magnitudeOf v)) := by
 have hs:Decides v (.compare .eq (.call₃ .substr .column (.number 1) (.number 1)) (.text ['-']))
   ((beforeNul v).take 1=['-']):=decides_text_eq (by simp [Expr.eval,apply₃,substr])
 obtain ⟨p,hev,hp⟩:=hs
 rw [magnitudeExpr,Expr.eval,Expr.eval,hev,magnitudeOf]
 simp only [←hp]
 cases p <;> simp [Expr.eval,apply₂,substr,Value.ofBool,Value.toBool]

def wholeOf (scale:ℕ) (m:List Char) : List Char :=
 if scale > 0 then substr m 1 (some ((beforeNul m).length-(scale+1 : ℕ))) else m

lemma eval_whole (v:List Char) (scale:ℕ) :
 (wholeExpr scale).eval v=some (.text (wholeOf scale (magnitudeOf v))) := by
 unfold wholeExpr wholeOf
 split_ifs
 · simp [Expr.eval,eval_magnitude,apply₁,apply₃]
 · exact eval_magnitude v

def fractionOf (scale:ℕ) (m:List Char) : List Char:=substr m (-scale) none

def FractionChecked (scale:ℕ) (m:List Char) : Prop :=
 scale > 0 → substr m (-(scale+1 : ℕ)) (some 1)=['.'] ∧ (beforeNul (fractionOf scale m)).length=scale ∧
  Digits (beforeNul (fractionOf scale m))

def BoundChecked (precision scale:ℕ) (whole:List Char) : Prop :=
 if precision=scale then whole=['0'] else (beforeNul whole).length≤precision-scale

lemma fraction_conditions (v:List Char) (scale:ℕ) :
 ∃Ps,Forall₂ (Decides v) (fractionConditions scale) Ps ∧
  ((∀P∈Ps,P) ↔ FractionChecked scale (magnitudeOf v)) := by
 have hf:(fractionExpr scale).eval v=some (.text (fractionOf scale (magnitudeOf v))):=by
  simp [fractionExpr,Expr.eval,eval_magnitude,apply₂,fractionOf]
 have hp:(Expr.call₃ .substr magnitudeExpr (.negative (scale+1)) (.number 1)).eval v =
   some (.text (substr (magnitudeOf v) (-(scale+1 : ℕ)) (some 1))):=by
  simp [Expr.eval,eval_magnitude,apply₃]
 unfold fractionConditions FractionChecked
 split_ifs with hs
 · refine ⟨_,.cons (decides_text_eq hp) (.cons (decides_ints .eq (eval_length hf) rfl)
    (.cons (decides_notDigits hf) .nil)),?_⟩
   simp only [forall_mem_cons,not_mem_nil,false_imp_iff,implies_true,and_true,compareInts,
    decide_eq_true_eq,Int.ofNat_inj,hs,forall_const]
 · exact ⟨[],.nil,by simp [hs]⟩

lemma decimal_conditions (precision scale:ℕ) (v:List Char) :
 (decimalExpr precision scale).holds v ↔ '\x00' ∉ v ∧ FractionChecked scale (magnitudeOf v) ∧
  Canonical (wholeOf scale (magnitudeOf v)) ∧
  BoundChecked precision scale (wholeOf scale (magnitudeOf v)) ∧ v≠negativeZero scale := by
 obtain ⟨fractions,hf,hfr⟩:=fraction_conditions v scale
 obtain ⟨wholes,hw,hwh⟩:=unsigned_conditions (eval_whole v scale)
 have hb:Decides v (boundExpr precision scale)
   (BoundChecked precision scale (wholeOf scale (magnitudeOf v))):=by
  unfold boundExpr BoundChecked
  split_ifs
  · exact decides_text_eq (eval_whole v scale)
  · exact (decides_ints .le (eval_length (eval_whole v scale)) rfl).congr (by simp [compareInts])
 have hz:Decides v (.compare .ne .column (.text (negativeZero scale))) (v≠negativeZero scale):=
  (decides_texts .ne rfl rfl).congr (by simp [compareTexts,utf8_injective.eq_iff])
 refine (decides_allOf (decides_isText v) (.cons (decides_nulFree rfl) (rel_append (rel_append
  (rel_append hf hw) (.cons hb .nil)) (.cons hz .nil)))).holds_iff.trans ?_
 simp only [true_and,forall_mem_cons,forall_mem_append,not_mem_nil,false_imp_iff,
  implies_true,and_true,hfr,hwh,and_assoc]
end

variable {m v:List Char} {scale:ℕ}
lemma substr_back (hm : '\x00' ∉ m) {k:ℕ} (hk:0<k) : substr m (-k) none=m.drop (m.length-k) := by
 simp only [substr,beforeNul_of_not_mem hm]
 rw [if_neg (by omega),if_pos (by omega)]
 congr 1
 omega

lemma substr_back_one (hm : '\x00' ∉ m) {k:ℕ} (hk:0<k) :
 substr m (-k) (some 1)=if k ≤ m.length then (m.drop (m.length-k)).take 1 else [] := by
 have hn:¬ -(k:ℤ) > 0 ∧ -(k:ℤ)<0:=by omega
 simp only [substr,beforeNul_of_not_mem hm,if_neg hn.1,if_pos hn.2,if_neg (show ¬ (1:ℤ)<0 by decide)]
 split_ifs with hle
 · rw [show (1-max (-(-(k:ℤ)+m.length)) 0).toNat=1 by omega,
    show (max (-(k:ℤ)+m.length) 0).toNat=m.length-k by omega]
 · rw [show (1-max (-(-(k:ℤ)+m.length)) 0).toNat=0 by omega,take_zero]

lemma wholeOf_eq (hm : '\x00' ∉ m) (hs:0<scale) (hle:scale+1 ≤ m.length) :
 wholeOf scale m=m.take (m.length-(scale+1)) := by
 rw [wholeOf,if_pos hs,beforeNul_of_not_mem hm,←Int.ofNat_sub hle]
 simp [substr,beforeNul_of_not_mem hm]

lemma fraction_split (hm : '\x00' ∉ m) (hs:0<scale) :
 FractionChecked scale m ↔ ∃whole fraction,m=whole ++ '.' :: fraction ∧ fraction.length=scale ∧
  Digits fraction ∧ wholeOf scale m=whole := by
 have hdr : '\x00' ∉ m.drop (m.length-scale):=fun hmm=>hm (mem_of_mem_drop hmm)
 rw [FractionChecked,fractionOf,substr_back hm hs,substr_back_one hm (Nat.succ_pos _),
  beforeNul_of_not_mem hdr]
 constructor
 · intro h
   obtain ⟨hp,hl,hd⟩:=h hs
   split_ifs at hp with hle
   have hc:=drop_of_take_one hp
   rw [show m.length-(scale+1)+1=m.length-scale by omega] at hc
   refine ⟨m.take (m.length-(scale+1)),m.drop (m.length-scale),?_,hl,hd,
    wholeOf_eq hm hs hle⟩
   rw [←hc,take_append_drop]
 · rintro ⟨whole,fraction,rfl,rfl,hd,-⟩ -
   have hl:(whole ++ '.' :: fraction).length=whole.length+1+fraction.length:=by
    simp only [length_append,length_cons]
    omega
   rw [if_pos (by omega),hl,Nat.add_sub_cancel,
    show whole.length+1+fraction.length-(fraction.length+1)=whole.length by omega]
   simpa using hd

lemma magnitudeOf_text (parts:Parts scale) : magnitudeOf parts.text=parts.magnitude := by
 rw [magnitudeOf,beforeNul_of_not_mem parts.nul_not_mem_text,Parts.text]
 cases parts.negative with
 | true=>simp
 | false=>
  have hh:=parts.head_magnitude
  cases hm : parts.magnitude with
  | nil=>simp
  | cons c s=>
   rw [hm,List.head?_cons,Ne,Option.some.injEq] at hh
   simp [hh]

lemma eq_magnitudeOf (hv : '\x00' ∉ v) :
 v=if v.head?=some '-' then '-' :: magnitudeOf v else magnitudeOf v := by
 rw [magnitudeOf,beforeNul_of_not_mem hv]
 cases v with
 | nil=>rfl
 | cons c s=>by_cases hc : c = '-' <;> simp [hc]

lemma wholeOf_text (parts:Parts scale) : wholeOf scale (magnitudeOf parts.text)=parts.whole := by
 rw [magnitudeOf_text parts]
 by_cases hs : 0<scale
 · have hl:parts.magnitude.length=parts.whole.length+(scale+1):=by
    simp [Parts.magnitude,hs,parts.length_eq]
   rw [wholeOf_eq parts.nul_not_mem_magnitude hs (by omega),hl,Nat.add_sub_cancel,Parts.magnitude,take_left]
 · rw [wholeOf,if_neg hs,Parts.magnitude,if_neg hs,append_nil]

lemma parts_of_checked (hv : '\x00' ∉ v) (hch:FractionChecked scale (magnitudeOf v))
 (hc:Canonical (wholeOf scale (magnitudeOf v))) : ∃parts : Parts scale,v=parts.text := by
 have hm : '\x00' ∉ magnitudeOf v:=by
  intro hmm
  rw [eq_magnitudeOf hv] at hv
  split_ifs at hv
  · exact hv (mem_cons_of_mem _ hmm)
  · exact hv hmm
 by_cases hs : 0<scale
 · obtain ⟨whole,fraction,hsp,hl,hd,rfl⟩:=(fraction_split hm hs).1 hch
   refine ⟨⟨v.head?=some '-',_,fraction,hc,hd,hl⟩,?_⟩
   conv_lhs=>rw [eq_magnitudeOf hv,hsp]
   simp [Parts.text,Parts.magnitude,hs]
 · obtain rfl : scale=0:=Nat.eq_zero_of_not_pos hs
   refine ⟨⟨v.head?=some '-',magnitudeOf v,[],hc,by simp [Digits],rfl⟩,?_⟩
   conv_lhs=>rw [eq_magnitudeOf hv]
   simp [Parts.text,Parts.magnitude]

lemma checked_text (parts:Parts scale) : FractionChecked scale (magnitudeOf parts.text) := by
 intro hs
 have hw:=wholeOf_text parts
 rw [magnitudeOf_text] at hw ⊢
 refine (fraction_split parts.nul_not_mem_magnitude hs).2
  ⟨parts.whole,parts.fraction,?_,parts.length_eq,parts.digits,hw⟩ hs
 rw [Parts.magnitude,if_pos hs]

variable {precision:ℕ}
lemma boundChecked_iff (hs:scale≤precision) (parts:Parts scale) :
 BoundChecked precision scale parts.whole ↔ parts.significant.length≤precision := by
 have hn : '\x00' ∉ parts.whole:=fun hm=>absurd (parts.canonical.2.1 _ hm) (by decide)
 rw [parts.length_significant_le_iff hs,BoundChecked,beforeNul_of_not_mem hn]

lemma decimal_holds_iff (hs:scale≤precision) (v:List Char) :
 (decimalExpr precision scale).holds v ↔ IsDecimal precision scale v := by
 rw [decimal_conditions,IsDecimal]
 constructor
 · rintro ⟨hv,hch,hc,hb,hz⟩
   obtain ⟨parts,rfl⟩:=parts_of_checked hv hch hc
   rw [wholeOf_text parts,boundChecked_iff hs] at hb
   exact ⟨parts,rfl,hb,mt parts.text_eq_negativeZero_iff.2 hz⟩
 · rintro ⟨parts,rfl,hb,hz⟩
   refine ⟨parts.nul_not_mem_text,checked_text parts,?_⟩
   rw [wholeOf_text parts,boundChecked_iff hs]
   exact ⟨parts.canonical,hb,mt parts.text_eq_negativeZero_iff.1 hz⟩
end InvariantProtocol.SqliteDecimal
