import InvariantProtocol.ClickHouseChecks
/-! The text of a check. Names hold no NUL, the character that opens the placeholder, so replacing the
placeholder changes exactly the expression a check is applied to. -/
namespace InvariantProtocol.ClickHouseText
open GoResult GoText ClickHouseSchema SqlText SqlExpr ClickHouseChecks

variable {s:String}
def NulFree (s:String) : Prop:=Char.ofNat 0∉s.toList

instance (s:String) : Decidable (NulFree s):=inferInstanceAs (Decidable (¬_))

lemma NulFree.append {t:String} (hs:NulFree s) (ht:NulFree t) : NulFree (s++t) := by
 simp only [NulFree,String.toList_append,List.mem_append,not_or]
 exact ⟨hs,ht⟩

lemma nulFree_of_validateIdentifier (h:validateIdentifier s=.ok ()) : NulFree s := by
 simp only [validateIdentifier,bind_ok,rejectIf_ok] at h
 obtain ⟨-,-,hc⟩:=h
 intro hm
 exact hc (List.any_eq_true.2 ⟨_,hm,by decide⟩)

lemma lookup_singleton (patterns:List (Char×String)) (c:Char) :
 (patterns.map fun p=>(String.singleton p.1,p.2)).lookup (String.singleton c) =
  patterns.lookup c := by
 induction patterns with
 | nil=>rfl
 | cons p patterns ih=>
  obtain ⟨d,text⟩:=p
  have hb:(String.singleton c == String.singleton d)=(c == d):=by
   rw [Bool.eq_iff_iff]
   simp [←String.toList_inj]
  simp [List.lookup_cons,hb,ih]

lemma quoteIdentifier_eq (s:String) : quoteIdentifier s=quoteName s := by
 have hes:(fun c=>(((([('\\',"\\\\"),(backquote,"\\`")] : List (Char×String)).lookup c).map
   String.toList).getD [c]))=nameEscape:=by
  funext c
  by_cases hs : c = '\\'
  · subst hs
    rfl
  by_cases hq : c=backquote
  · subst hq
    rfl
  simp [List.lookup_cons,nameEscape,hs,hq,beq_false_of_ne]
 rw [quoteIdentifier,replaceRunes,quoteName,delimit,←hes,←String.toList_inj]
 simp only [←lookup_singleton]
 simp [backquote]

lemma quoteLiteral_eq (s:String) : quoteLiteral s=quoteText s := by
 have hes:(fun c=>(((([('\\',"\\\\"),(apostrophe,"\\'"),('\n',"\\n"),('\r',"\\r"),
   ('\t',"\\t")] : List (Char×String)).lookup c).map String.toList).getD [c]))=textEscape:=by
  funext c
  by_cases hs : c = '\\'
  · subst hs
    rfl
  by_cases hq : c=apostrophe
  · subst hq
    rfl
  by_cases hn : c = '\n'
  · subst hn
    rfl
  by_cases hr : c = '\r'
  · subst hr
    rfl
  by_cases ht : c = '\t'
  · subst ht
    rfl
  simp [List.lookup_cons,textEscape,hs,hq,hn,hr,ht,beq_false_of_ne]
 rw [quoteLiteral,replaceRunes,quoteText,delimit,←hes,←String.toList_inj]
 simp only [←lookup_singleton]
 simp [apostrophe]

lemma nulFree_delimit {delimiter:Char} {escape:Char → List Char} (hs:NulFree s)
 (hd:delimiter≠Char.ofNat 0) (hes:∀c,c≠Char.ofNat 0 → Char.ofNat 0∉escape c) :
 NulFree (delimit delimiter escape s) := by
 simp only [NulFree,delimit,String.toList_ofList,List.mem_cons,List.mem_append,List.mem_flatMap,
  List.not_mem_nil,or_false]
 rintro (h|⟨c,hc,hm⟩|h)
 · exact hd h.symm
 · exact hes c (fun heq=>hs (heq ▸ hc)) hm
 · exact hd h.symm

lemma nulFree_quoteText (hs:NulFree s) : NulFree (quoteText s) := by
 refine nulFree_delimit hs (by decide) fun c hc=>?_
 unfold textEscape
 split_ifs <;> simp [hc.symm]

lemma nulFree_of_digits (h:∀c∈s.toList,c.isDigit=true) : NulFree s := by
 intro hm
 exact absurd (h _ hm) (by decide)

lemma nulFree_nat (n:ℕ) : NulFree (toString n) :=
 nulFree_of_digits fun c hc=>formatInt_isDigit n c hc

lemma nulFree_int (n:ℤ) : NulFree (toString n) := by
 cases n with
 | ofNat n=>exact nulFree_nat n
 | negSucc n=>exact NulFree.append (s := "-") (by decide) (nulFree_nat (n+1))

lemma nulFree_ints (ns:List ℤ) : NulFree (String.intercalate ", " (ns.map toString)) := by
 induction ns with
 | nil=>decide
 | cons n ns ih=>
  cases ns with
  | nil=>simpa using nulFree_int n
  | cons m ns=>
   simp only [List.map_cons,String.intercalate_cons_cons] at ih ⊢
   exact ((nulFree_int n).append (by decide)).append ih

section

/-- What a check is about, before the enclosing node says where that is. -/
def placeholder : Expr:=.name constraintValuePlaceholder

def Rewrites (new:String) (x y:Expr) : Prop :=
 Becomes constraintValuePlaceholder new x.render y.render

variable {new:String} {x x' y y':Expr} {s:String}
lemma NulFree.becomes (hs:NulFree s) : Becomes constraintValuePlaceholder new s s :=
 fun rest=>replaceChars_of_not_mem hs rest

lemma rewrites_placeholder (r:Expr) : Rewrites r.render placeholder r :=
 fun rest=>replaceChars_match rest

lemma rewrites_apply (f:Function) (h:Rewrites new x y) : Rewrites new (.apply f x) (.apply f y) := by
 have hn:NulFree f.name:=by cases f <;> decide
 exact ((hn.becomes.append (NulFree.becomes (by decide))).append h).append
  (NulFree.becomes (by decide))

lemma rewrites_tupleElement {name:String} (hn:NulFree name) (h:Rewrites new x y) :
 Rewrites new (.tupleElement x name) (.tupleElement y name) :=
 (Becomes.append (NulFree.becomes (s := "tupleElement"++"(") (by decide))
  ((h.append (NulFree.becomes (by decide))).append (nulFree_quoteText hn).becomes)).append
   (NulFree.becomes (by decide))

lemma rewrites_paren (h:Rewrites new x y) : Rewrites new (.paren x) (.paren y) :=
 (Becomes.append (NulFree.becomes (s := "(") (by decide)) h).append (NulFree.becomes (by decide))

lemma rewrites_eq (h:Rewrites new x y) (h':Rewrites new x' y') : Rewrites new (.eq x x') (.eq y y') :=
 (h.append (NulFree.becomes (by decide))).append h'

lemma rewrites_not (h:Rewrites new x y) : Rewrites new (.not x) (.not y) :=
 Becomes.append (NulFree.becomes (s := "NOT ") (by decide)) h

lemma rewrites_or (h:Rewrites new x y) (h':Rewrites new x' y') : Rewrites new (.or x x') (.or y y') :=
 (h.append (NulFree.becomes (by decide))).append h'

lemma rewrites_int (n:ℤ) : Rewrites new (.int n) (.int n) := (nulFree_int n).becomes

lemma rewrites_isIn (ns:List ℤ) (h:Rewrites new x y) : Rewrites new (.isIn x ns) (.isIn y ns) :=
 ((h.append (NulFree.becomes (by decide))).append (nulFree_ints ns).becomes).append
  (NulFree.becomes (by decide))

lemma rewrites_name (hs:NulFree s) : Rewrites new (.name s) (.name s) :=
 hs.becomes

lemma rewrites_arrayAll (hs:NulFree s) (h:Rewrites new x y) (h':Rewrites new x' y') :
 Rewrites new (.arrayAll s x x') (.arrayAll s y y') :=
 (Becomes.append (NulFree.becomes (s := "arrayAll"++"(") (by decide))
  (((((hs.becomes.append (NulFree.becomes (by decide))).append h).append
   (NulFree.becomes (by decide))).append h'))).append (NulFree.becomes (by decide))
end

/-- Names hold no NUL, and a list of alternatives is not empty. -/
def Clean : Check → Prop
 | .oneOf ns=>ns≠[]
 | .selected caseName _ member=>NulFree caseName ∧ NulFree member
 | .element name c=>NulFree name ∧ Clean c
 | .ifPresent c=>Clean c
 | .ifNotNull c=>Clean c
 | .allElements c=>Clean c
 | .allKeys c=>Clean c
 | .allValues c=>Clean c
 | _=>True

lemma rewrites_check {new:String} (c:Check) (hc:Clean c) {x y:Expr} (h:Rewrites new x y) :
 Rewrites new (c.expr x) (c.expr y) := by
 have hp:NulFree "present":=by decide
 induction c generalizing x y with
 | utf8=>exact rewrites_apply _ h
 | json=>exact rewrites_apply _ h
 | oneOf ns=>exact rewrites_isIn ns h
 | hasLength n=>exact rewrites_eq (rewrites_apply _ h) (rewrites_int n)
 | distinctKeys=>
  exact rewrites_eq (rewrites_apply _ (rewrites_apply _ h))
   (rewrites_apply _ (rewrites_apply _ (rewrites_apply _ h)))
 | isTrue=>exact h
 | isFalse=>exact rewrites_eq h (NulFree.becomes (by decide))
 | selected caseName n member=>
  exact rewrites_eq (rewrites_paren (rewrites_eq (rewrites_tupleElement hc.1 h) (rewrites_int n)))
   (rewrites_tupleElement hp (rewrites_tupleElement hc.2 h))
 | element name c ih=>exact ih hc.2 (rewrites_tupleElement hc.1 h)
 | ifPresent c ih=>
  exact rewrites_or (rewrites_not (rewrites_tupleElement hp h))
   (rewrites_paren (ih hc (rewrites_tupleElement (by decide) h)))
 | ifNotNull c ih=>
  exact rewrites_or (rewrites_apply _ h) (rewrites_paren (ih hc (rewrites_apply _ h)))
 | allElements c ih=>
  have hn:NulFree "element":=by decide
  exact rewrites_arrayAll hn (rewrites_paren (ih hc (rewrites_name hn))) h
 | allKeys c ih=>
  have hn:NulFree "key":=by decide
  exact rewrites_arrayAll hn (rewrites_paren (ih hc (rewrites_name hn))) (rewrites_apply _ h)
 | allValues c ih=>
  have hn:NulFree "value":=by decide
  exact rewrites_arrayAll hn (rewrites_paren (ih hc (rewrites_name hn))) (rewrites_apply _ h)

variable {c:Check}
/-- Replacing the placeholder in the text of a check moves the check to another expression. -/
theorem replaceValue_check (hc:Clean c) (r:Expr) :
 replaceValue (c.expr placeholder).render r.render=(c.expr r).render :=
 (rewrites_check c hc (rewrites_placeholder r)).replaceAll

lemma check_wellFormed (hc:Clean c) {x:Expr} (hx:x.WellFormed) (hl:x.level=0) :
 (c.expr x).WellFormed := by
 induction c generalizing x with
 | element name c ih=>exact ih hc.2 hx rfl
 | ifPresent c ih=>
  exact ⟨⟨hx,by simp [Expr.level]⟩,ih hc hx rfl,by simp [Expr.level],by simp [Expr.level]⟩
 | ifNotNull c ih=>exact ⟨hx,ih hc hx rfl,by simp [Expr.level],by simp [Expr.level]⟩
 | allElements c ih=>exact ⟨by decide,ih hc ⟨by decide,by decide⟩ rfl,hx⟩
 | allKeys c ih=>exact ⟨by decide,ih hc ⟨by decide,by decide⟩ rfl,hx⟩
 | allValues c ih=>exact ⟨by decide,ih hc ⟨by decide,by decide⟩ rfl,hx⟩
 | oneOf ns=>exact ⟨hx,hl,hc⟩
 | isTrue=>exact hx
 | isFalse=>exact ⟨hx,trivial,hl,rfl⟩
 | utf8=>exact hx
 | json=>exact hx
 | hasLength n=>exact ⟨hx,trivial,rfl,rfl⟩
 | distinctKeys=>exact ⟨hx,hx,rfl,rfl⟩
 | selected caseName n member=>exact ⟨⟨hx,trivial,rfl,rfl⟩,hx,rfl,rfl⟩

lemma columnCheck_wellFormed (hc:Clean c) (hs:c.onScope=true) : c.columnExpr.WellFormed := by
 cases c with
 | selected caseName n member=>exact ⟨⟨trivial,trivial,rfl,rfl⟩,trivial,rfl,rfl⟩
 | element name c=>exact check_wellFormed hc.2 trivial rfl
 | _=>simp [Check.onScope] at hs
end InvariantProtocol.ClickHouseText
