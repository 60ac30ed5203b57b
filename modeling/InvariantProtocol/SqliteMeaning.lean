import InvariantProtocol.DigitText
import InvariantProtocol.SqliteChecks
import Mathlib.Data.List.Infix
import Mathlib.Data.List.TakeWhile
namespace InvariantProtocol.SqliteMeaning
open List GoText ByteText DataSchema DigitText SqliteExpr SqliteSchema SqliteChecks

section
variable {v w:List Char} {a b:Expr} {P Q:Prop}
/-- The expression is zero or one, and one exactly under the condition. -/
def Decides (v:List Char) (a:Expr) (P:Prop) : Prop :=
 ∃p : Bool,a.eval v=some (.ofBool p) ∧ (p=true ↔ P)

lemma Decides.holds_iff (h:Decides v a P) : a.holds v ↔ P := by
 obtain ⟨p,hev,hp⟩:=h
 rw [←hp]
 cases p <;> simp [Expr.holds,hev,Value.ofBool]

lemma Decides.congr (h:Decides v a P) (hPQ:P ↔ Q) : Decides v a Q := propext hPQ ▸ h

lemma Decides.paren (h:Decides v a P) : Decides v (.paren a) P := h

lemma Decides.and (ha:Decides v a P) (hb:Decides v b Q) : Decides v (.and a b) (P ∧ Q) := by
 obtain ⟨p,hp,hP⟩:=ha
 obtain ⟨q,hq,hQ⟩:=hb
 refine ⟨p && q,?_,by rw [Bool.and_eq_true,hP,hQ]⟩
 cases p <;> cases q <;> simp [Expr.eval,hp,hq,Value.ofBool,Value.toBool]

lemma Decides.or (ha:Decides v a P) (hb:Decides v b Q) : Decides v (.or a b) (P ∨ Q) := by
 obtain ⟨p,hp,hP⟩:=ha
 obtain ⟨q,hq,hQ⟩:=hb
 refine ⟨p || q,?_,by rw [Bool.or_eq_true,hP,hQ]⟩
 cases p <;> cases q <;> simp [Expr.eval,hp,hq,Value.ofBool,Value.toBool]

lemma decides_allOf {conditions:List Expr} {Ps:List Prop} (ha:Decides v a P)
 (h:Forall₂ (Decides v) conditions Ps) : Decides v (allOf a conditions) (P ∧ ∀Q∈Ps,Q) := by
 induction h generalizing a P with
 | nil=>exact ha.congr (by simp)
 | @cons b Q conditions Ps hb _ ih=>exact (ih (ha.and hb)).congr (by rw [forall_mem_cons,and_assoc])

lemma decides_texts (op:Comparison) {x y:List Char} (ha:a.eval v=some (.text x))
 (hb:b.eval v=some (.text y)) : Decides v (.compare op a b) (compareTexts op x y=true) :=
 ⟨_,by simp [Expr.eval,ha,hb,compareValues],Iff.rfl⟩

lemma decides_ints (op:Comparison) {m n:ℤ} (ha:a.eval v=some (.int m))
 (hb:b.eval v=some (.int n)) : Decides v (.compare op a b) (compareInts op m n=true) :=
 ⟨_,by simp [Expr.eval,ha,hb,compareValues],Iff.rfl⟩

lemma decides_text_eq {s:List Char} (ha:a.eval v=some (.text w)) :
 Decides v (.compare .eq a (.text s)) (w=s) :=
 (decides_texts .eq ha rfl).congr (by simp [compareTexts,utf8_injective.eq_iff])

lemma instr_nul (w:List Char) (at_:ℕ) : instr ['\x00'] at_ w=0 ↔ '\x00' ∉ w := by
 induction w generalizing at_ with
 | nil=>simp [instr]
 | cons c w ih=>
  by_cases hc : c = '\x00'
  · simp [instr,hc]
  · simp [instr,Ne.symm hc,ih]

lemma decides_nulFree (ha:a.eval v=some (.text w)) : Decides v (nulFree a) ('\x00' ∉ w) := by
 have hi:(Expr.call₂ .instr a (.call₁ .char (.number 0))).eval v=some (.int (instr ['\x00'] 0 w)):=by
  simp [Expr.eval,ha,apply₁,apply₂]
 refine (decides_ints .eq hi rfl).congr ?_
 rw [←instr_nul w 0]
 simp [compareInts]

lemma glob_outside {pattern:List Char} {ranges:List (Char×Char)}
 (hp:readGlob (pattern.length+1) pattern=some [.any,.oneOf true ranges,.any]) (w:List Char) :
 glob pattern w=false ↔ ∀c∈beforeNul w,inRanges ranges c=true := by
 have ha (s:List Char) : (s.tails.any fun rest=>rest.isEmpty)=true:=by
  rw [any_eq_true]
  exact ⟨[],(mem_tails _ _).2 nil_suffix,rfl⟩
 simp only [glob,hp,Option.any_some]
 generalize beforeNul w=s
 induction s with
 | nil=>simp [globMatches]
 | cons c s ih=>
  have hs:globMatches [.any,.oneOf true ranges,.any] (c::s) =
    (!inRanges ranges c || globMatches [.any,.oneOf true ranges,.any] s):=by
   rw [globMatches,tails,any_cons,←globMatches]
   simp [globMatches,ha]
  rw [hs,Bool.or_eq_false_iff,forall_mem_cons,Bool.not_eq_false']
  exact and_congr_right fun _=>ih

lemma glob_notDigits (w:List Char) : glob notDigits w=false ↔ Digits (beforeNul w) := by
 have hr:readGlob (notDigits.length+1) notDigits=some [.any,.oneOf true [('0','9')],.any]:=rfl
 rw [glob_outside hr,Digits]
 refine forall₂_congr fun c _=>?_
 have hle:(inRanges [('0','9')] c=true)=(c.isDigit=true):=by
  simp [inRanges,Char.isDigit,Char.le_def]
 rw [hle]

lemma decides_notDigits (ha:a.eval v=some (.text w)) :
 Decides v (.notGlob a (.text notDigits)) (Digits (beforeNul w)) :=
 ⟨!glob notDigits w,by simp [Expr.eval,ha],by rw [Bool.not_eq_true',glob_notDigits]⟩

lemma drop_of_take_one {n:ℕ} {c:Char} (h:(w.drop n).take 1=[c]) : w.drop n=c::w.drop (n+1) := by
 rw [←take_append_drop 1 (w.drop n),h,drop_drop]
 rfl

lemma beforeNul_of_not_mem (h : '\x00' ∉ w) : beforeNul w=w :=
 List.takeWhile_eq_self_iff.2 fun c hc=>by
  rw [decide_eq_true_eq]
  rintro rfl
  exact h hc

lemma between_digits : ∀d<10,(¬ utf8 [Nat.digitChar d]<utf8 ['1'] ∧
 ¬ utf8 ['9']<utf8 [Nat.digitChar d]) ↔ Nat.digitChar d ≠ '0' := by decide

lemma unsigned_conditions (ha:a.eval v=some (.text w)) :
 ∃Ps,Forall₂ (Decides v) (unsigned a) Ps ∧ ((∀P∈Ps,P) ↔ Canonical w) := by
 have hsb:(Expr.call₃ .substr a (.number 1) (.number 1)).eval v =
   some (.text ((beforeNul w).take 1)):=by
  simp [Expr.eval,ha,apply₃,substr]
 have hf:Decides v (.between (.call₃ .substr a (.number 1) (.number 1)) (.text ['1']) (.text ['9']))
   (¬ utf8 ((beforeNul w).take 1)<utf8 ['1'] ∧ ¬ utf8 ['9']<utf8 ((beforeNul w).take 1)):=by
  refine ⟨!compareTexts .lt ((beforeNul w).take 1) ['1'] && compareTexts .le ((beforeNul w).take 1) ['9'],
   ?_,by simp [compareTexts]⟩
  rw [Expr.eval,hsb]
  rfl
 refine ⟨_,.cons (decides_ints .gt (eval_length ha) rfl) (.cons (decides_nulFree ha)
  (.cons (decides_notDigits ha) (.cons ((decides_text_eq ha).or hf).paren .nil))),?_⟩
 simp only [forall_mem_cons,not_mem_nil,false_imp_iff,implies_true,and_true,compareInts,
  decide_eq_true_eq,Int.ofNat_lt,length_pos_iff]
 have hc (hn : '\x00' ∉ w) (hne:w≠[]) (hdg:Digits w) :
   (¬ utf8 (w.take 1)<utf8 ['1'] ∧ ¬ utf8 ['9']<utf8 (w.take 1)) ↔ w.head?≠some '0':=by
  obtain ⟨c,s,rfl⟩:=exists_cons_of_ne_nil hne
  obtain ⟨d,hd,rfl⟩:=digit_eq (hdg c (by simp))
  rw [List.head?_cons,Ne,Option.some.injEq]
  exact between_digits d hd
 constructor
 · rintro ⟨hne,hn,hdg,hs⟩
   rw [beforeNul_of_not_mem hn] at hne hdg hs
   exact ⟨hne,hdg,hs.imp_right (hc hn hne hdg).1⟩
 · rintro ⟨hne,hdg,hs⟩
   have hn : '\x00' ∉ w:=fun hm=>absurd (hdg _ hm) (by decide)
   rw [beforeNul_of_not_mem hn]
   exact ⟨hne,hn,hdg,hs.imp_right (hc hn hne hdg).2⟩
end

lemma uint64_bound {w:List Char} (h:Canonical w) :
 (w.length<20 ∨ w.length=20 ∧ ¬ utf8 maxUint64<utf8 w) ↔ number w<2^64 := by
 have hm:Digits maxUint64 ∧ maxUint64.length=20 ∧ number maxUint64=18446744073709551615:=
  ⟨List.all_eq_true.1 (by decide),by decide,by decide⟩
 have hlt:=number_lt h.2.1
 obtain hl|hl|hl:=Nat.lt_trichotomy w.length 20
 · have hp:10^w.length≤10^19:=Nat.pow_le_pow_right (by decide) (by omega)
   exact ⟨fun _=>by omega,fun _=>.inl hl⟩
 · rw [utf8_lt_iff hm.1 h.2.1 (hm.2.1.trans hl.symm),hm.2.2]
   omega
 · have hp:10^20≤number w:=by
    by_contra hsmall
    have hle:=(Nat.length_toDigits_le_iff (b := 10) (k := 20) (by decide) (by decide)).2
     (Nat.lt_of_not_le hsmall)
    rw [toDigits_number h] at hle
    omega
   refine ⟨fun h=>?_,fun h=>?_⟩ <;> omega

lemma decides_isText (v:List Char) : Decides v isText True :=
 (decides_text_eq (a := .call₁ .typeof .column) rfl).congr (by decide)

lemma uint64_decides (v:List Char) : Decides v uint64Expr (Canonical v ∧ number v<2^64) := by
 obtain ⟨Ps,hPs,hc⟩:=unsigned_conditions (v := v) (a := .column) rfl
 have hl:=eval_length (v := v) (a := .column) rfl
 have hb:=((decides_ints .lt hl (b := .number 20) rfl).or
  ((decides_ints .eq hl (b := .number 20) rfl).and
   (decides_texts .le (a := .column) (b := .collateBinary (.text maxUint64)) (v := v) rfl rfl)).paren).paren
 refine (decides_allOf (decides_isText v) (rel_append hPs (.cons hb .nil))).congr ?_
 simp only [true_and,forall_mem_append,hc,forall_mem_singleton,compareInts,compareTexts,
  decide_eq_true_eq]
 refine and_congr_right fun h=>?_
 have hn : '\x00' ∉ v:=fun hm=>absurd (h.2.1 _ hm) (by decide)
 rw [beforeNul_of_not_mem hn,←uint64_bound h]
 norm_cast

/-- The check of a `uint64` column lets exactly the shortest decimal texts of its numbers through. -/
theorem uint64_check_exact (t name:String) (kind:PrimitiveKind)
  (hkind:kind=.uint64 ∨ kind=.fixed64) (v:List Char) :
  ∃m,mapping (.primitive t kind) name=.ok m ∧ m.check=uint64Expr.render name ∧
   (uint64Expr.holds v ↔ ∃n<2^64,v=(toString n).toList) := by
 have hch:uint64Expr.holds v ↔ ∃n<2^64,v=(toString n).toList := by
  rw [(uint64_decides v).holds_iff]
  constructor
  · rintro ⟨hc,hlt⟩
    exact ⟨number v,hlt,(toDigits_number hc).symm.trans Nat.toList_repr.symm⟩
  · rintro ⟨n,hlt,rfl⟩
    rw [show (toString n).toList=Nat.toDigits 10 n from Nat.toList_repr]
    exact ⟨canonical_toDigits n,by rwa [number,Nat.ofDigitChars_ten_toDigits]⟩
 obtain rfl|rfl:=hkind
 · exact ⟨_,rfl,(render_uint64 name).symm,hch⟩
 · exact ⟨_,rfl,(render_uint64 name).symm,hch⟩

theorem largest_uint64_accepted : ∃m,mapping (.primitive "fixed64" .fixed64) (quote "balance")=.ok m ∧
  m.check=uint64Expr.render (quote "balance") ∧ uint64Expr.holds (toString (2^64-1)).toList := by
 obtain ⟨m,hm,hc,hex⟩:=uint64_check_exact "fixed64" (quote "balance") .fixed64 (.inr rfl)
  (toString (2^64-1)).toList
 exact ⟨m,hm,hc,hex.2 ⟨_,by decide,rfl⟩⟩

variable {v:List Char}
def isLowerHex (c:Char) : Bool:=c.isDigit || 'a' ≤ c && c ≤ 'f'

/-- Thirty-two hexadecimal digits in groups of 8, 4, 4, 4 and 12. -/
def hyphenated (hex:List Char) : List Char :=
 hex.take 8 ++ '-' :: (hex.drop 8).take 4 ++ '-' :: (hex.drop 12).take 4 ++
  '-' :: (hex.drop 16).take 4 ++ '-' :: hex.drop 20

def IsUuid (v:List Char) : Prop :=
 ∃hex : List Char,hex.length=32 ∧ (∀c∈hex,isLowerHex c=true) ∧ v=hyphenated hex

lemma replaceChars_eq_filter (d:Char) (s:List Char) : replaceChars [d] [] 0 s=s.filter (· ≠ d) := by
 induction s with
 | nil=>rfl
 | cons c s ih=>
  by_cases hc : c=d
  · simp [replaceChars,hc,ih]
  · simp [replaceChars,hc,Ne.symm hc,ih]

lemma filter_hyphenated (hex:List Char) : (hyphenated hex).filter (· ≠ '-')=hex.filter (· ≠ '-') := by
 have hp:hex=hex.take 8++((hex.drop 8).take 4++((hex.drop 12).take 4 ++
   ((hex.drop 16).take 4++hex.drop 20))):=by
  have hn (m n:ℕ) : hex.drop m=(hex.drop m).take n++hex.drop (m+n):=by
   rw [←drop_drop,take_append_drop]
  rw [←hn 16 4,←hn 12 4,←hn 8 4,take_append_drop]
 conv_rhs=>rw [hp]
 simp [hyphenated]

lemma eq_hyphenated (hl:v.length=36) (h:∀n∈[8,13,18,23],(v.drop n).take 1=['-']) :
 ∃hex : List Char,hex.length=32 ∧ v=hyphenated hex := by
 have hat (n:ℕ) (hn:n∈[8,13,18,23]):=drop_of_take_one (h n hn)
 have hg (m n:ℕ) : v.drop m=(v.drop m).take n++v.drop (m+n):=by
  rw [←drop_drop,take_append_drop]
 have hs:v=v.take 8 ++ '-' :: ((v.drop 9).take 4 ++ '-' :: ((v.drop 14).take 4 ++
   '-' :: ((v.drop 19).take 4 ++ '-' :: v.drop 24))):=by
  rw [←hat 23 (by simp),←hg 19 4,←hat 18 (by simp),←hg 14 4,←hat 13 (by simp),
   ← hg 9 4,←hat 8 (by simp),take_append_drop]
 refine ⟨v.take 8++((v.drop 9).take 4++((v.drop 14).take 4++((v.drop 19).take 4++v.drop 24))),
  by simp [hl],hs.trans ?_⟩
 simp (disch := simp [hl]) [hyphenated,drop_append,hl,
  drop_eq_nil_of_le]

lemma filter_hex {hex:List Char} (h:∀c∈hex,isLowerHex c=true) : hex.filter (· ≠ '-')=hex :=
 List.filter_eq_self.2 fun c hc=>by
  rw [decide_eq_true_eq]
  rintro rfl
  exact absurd (h _ hc) (by decide)

lemma glob_notHex (w:List Char) : glob notHex w=false ↔ ∀c∈beforeNul w,isLowerHex c=true := by
 have hr:readGlob (notHex.length+1) notHex =
   some [.any,.oneOf true [('0','9'),('a','f')],.any]:=rfl
 rw [glob_outside hr]
 refine forall₂_congr fun c _=>?_
 simp [inRanges,isLowerHex,Char.isDigit,Char.le_def]

lemma uuid_decides (v:List Char) : Decides v uuidExpr (IsUuid v) := by
 have hat (n:ℕ) : Decides v (hyphenAt (n+1)) (((beforeNul v).drop n).take 1=['-']):=
  decides_text_eq (by simp [Expr.eval,apply₃,substr])
 have hhx:withoutHyphens.eval v=some (.text (v.filter (· ≠ '-'))):=by
  simp [withoutHyphens,Expr.eval,apply₃,replaceChars_eq_filter]
 have hg:Decides v (.notGlob withoutHyphens (.text notHex))
   (∀c∈beforeNul (v.filter (· ≠ '-')),isLowerHex c=true):=
  ⟨!glob notHex (v.filter (· ≠ '-')),by simp [Expr.eval,hhx],by rw [Bool.not_eq_true',glob_notHex]⟩
 refine (decides_allOf (decides_isText v) (.cons (decides_ints .eq (eval_length rfl) rfl)
  (.cons (decides_nulFree rfl) (.cons (hat 8) (.cons (hat 13) (.cons (hat 18) (.cons (hat 23)
   (.cons (decides_ints .eq (eval_length hhx) rfl) (.cons hg .nil))))))))).congr ?_
 simp only [true_and,forall_mem_cons,not_mem_nil,false_imp_iff,implies_true,and_true,
  compareInts,decide_eq_true_eq]
 constructor
 · rintro ⟨hl,hn,h₁,h₂,h₃,h₄,hc,hlw⟩
   have hf : '\x00' ∉ v.filter (· ≠ '-'):=fun hm=>hn (mem_of_mem_filter hm)
   rw [beforeNul_of_not_mem hn] at hl h₁ h₂ h₃ h₄
   rw [beforeNul_of_not_mem hf] at hc hlw
   obtain ⟨hex,hh,rfl⟩:=eq_hyphenated (Int.ofNat_inj.1 hl) (by simp [h₁,h₂,h₃,h₄])
   rw [filter_hyphenated] at hc hlw
   -- none of the thirty-two characters is dropped with the hyphens
   have hs:hex.filter (· ≠ '-')=hex:=
    List.filter_sublist.eq_of_length ((Int.ofNat_inj.1 hc).trans hh.symm)
   exact ⟨hex,hh,hs ▸ hlw,rfl⟩
 · rintro ⟨hex,hl,hlw,rfl⟩
   have hs:hex.filter (· ≠ '-')=hex:=filter_hex hlw
   have hn : '\x00' ∉ hex:=fun hm=>absurd (hlw _ hm) (by decide)
   have hf : '\x00' ∉ hyphenated hex:=fun hm=>hn <| by
    rw [←hs,←filter_hyphenated]
    exact List.mem_filter.2 ⟨hm,by decide⟩
   rw [beforeNul_of_not_mem hf,filter_hyphenated,hs,beforeNul_of_not_mem hn]
   refine ⟨by simp [hyphenated,hl],hf,?_,?_,?_,?_,by simp [hl],hlw⟩ <;>
    simp (disch := simp [hl]) [hyphenated,drop_append,hl,drop_eq_nil_of_le]
end InvariantProtocol.SqliteMeaning
