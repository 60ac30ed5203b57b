import InvariantProtocol.SqlExpr
import Mathlib.Order.Basic
namespace InvariantProtocol.SqlRoundTrip
open SqlText SqlExpr
open List hiding and or

/-- The tokens after which a reader of level `L` would read on. -/
def continues (L:ℕ) : Token → Bool
 | .symbol c=>c = '(' || (c = '=' && 1≤L)
 | .word w=>(w = "IN" && 1≤L) || (w = "AND" && 3≤L) || (w = "OR" && 4≤L)
 | _=>false

def Ends (L:ℕ) (ts:List Token) : Prop := ∀t∈ts.head?,continues L t=false

variable {L:ℕ} {ts rest:List Token} {e:Expr}
lemma Ends.mono {M:ℕ} (hle:M≤L) (h:Ends L ts) : Ends M ts := by
 intro t ht
 have h:=h t ht
 cases t with
 | symbol c=>grind [continues]
 | word w=>grind [continues]
 | _=>rfl

section
variable {operand:ExprReader} {ts rest:List Token} {a:Expr}
lemma readComparison_operand (h:operand ts=some (a,rest)) (hr:Ends 1 rest) :
 readComparison operand ts=some (a,rest) := by
 simp only [readComparison,h,Option.bind_eq_bind,Option.bind_some]
 split
 · next heq=>
   cases heq
   simp [Ends,continues] at hr
 · next heq=>
   cases heq
   simp [Ends,continues] at hr
 · next heq=>rw [heq]

lemma readNegation_operand (h:operand ts=some (a,rest)) :
 readNegation operand ts=some (a,rest) := by simp [readNegation,h]

lemma readNegation_not (hn:operand (.word "NOT" :: ts)=none) (h:operand ts=some (a,rest)) :
 readNegation operand (.word "NOT" :: ts)=some (.not a,rest) := by
 simp [readNegation,hn,h]

variable {keyword:String} {operator:Expr → Expr → Expr}
lemma readBinary_operator {b:Expr} {us:List Token} (ha:operand ts=some (a,.word keyword::us))
 (hb:operand us=some (b,rest)) : readBinary keyword operator operand ts=some (operator a b,rest) := by
 simp [readBinary,ha,hb]

lemma readBinary_operand (h:operand ts=some (a,rest)) (hr:rest.head?≠some (.word keyword)) :
 readBinary keyword operator operand ts=some (a,rest) := by
 simp only [readBinary,h,Option.bind_eq_bind,Option.bind_some]
 split
 · next w ts heq=>
   cases heq
   have hw:w≠keyword:=by simpa using hr
   simp [hw]
 · next heq=>rw [heq]
end

lemma readLevel_succ {inner:ExprReader} (h:readLevel inner L ts=some (e,rest))
 (hr:Ends (L+1) rest) : readLevel inner (L+1) ts=some (e,rest) := by
 match L with
 | 0=>exact readComparison_operand h hr
 | 1=>exact readNegation_operand h
 | 2=>
  refine readBinary_operand h fun hh=>?_
  simpa [continues] using hr _ hh
 | 3=>
  refine readBinary_operand h fun hh=>?_
  simpa [continues] using hr _ hh
 | _+4=>exact h

lemma readLevel_le {inner:ExprReader} {M:ℕ} (hle:M≤L) (h:readLevel inner M ts=some (e,rest))
 (hr:Ends L rest) : readLevel inner L ts=some (e,rest) := by
 induction hle with
 | refl=>exact h
 | @step L hle ih=>exact readLevel_succ (ih (hr.mono (Nat.le_succ L))) hr

/-- The expression is read back at its own level, in front of whatever ends it there. -/
def Reads (e:Expr) : Prop :=
 ∀fuel,e.depth≤fuel → ∀L,e.level≤L → ∀rest,Ends L rest →
  readLevel (readExpr fuel) L (e.tokens++rest)=some (e,rest)

lemma Reads.of_level (h:∀fuel,e.depth≤fuel → ∀rest,Ends e.level rest →
 readLevel (readExpr fuel) e.level (e.tokens++rest)=some (e,rest)) : Reads e :=
 fun fuel hf _ hle rest hr=>readLevel_le hle (h fuel hf rest (hr.mono hle)) hr

lemma level_le (e:Expr) : e.level≤4 := by
 cases e <;> simp [Expr.level]

lemma Reads.inner (h:Reads e) {fuel:ℕ} (hf:e.depth<fuel) (hr:Ends 4 rest) :
 readExpr fuel (e.tokens++rest)=some (e,rest) := by
 cases fuel with
 | zero=>omega
 | succ fuel=>exact h fuel (by omega) 4 (level_le e) rest hr

lemma ends_symbol {c:Char} (hc:c = ')' ∨ c = ',') (rest:List Token) : Ends L (.symbol c::rest) := by
 intro t ht
 obtain rfl : Token.symbol c=t:=by simpa using ht
 rcases hc with rfl|rfl <;> simp [continues]

lemma readPrimary_word {inner:ExprReader} {w:String} (h:Ends 0 rest) :
 readPrimary inner (.word w::rest)=(readWord w).map fun a=>(a,rest) := by
 rw [readPrimary]
 intro ts hts
 subst hts
 simp [Ends,continues] at h

lemma readLevel_not {inner:ExprReader} (ts:List Token) : readLevel inner 1 (.word "NOT" :: ts)=none := by
 have hw:readWord "NOT" = none:=by decide
 have hn:Function.ofName "NOT" = none:=by decide
 have hp:readPrimary inner (.word "NOT" :: ts)=none:=by
  by_cases hts : ∃us,ts=.symbol '(' :: us
  · obtain ⟨us,rfl⟩:=hts
    simp [readPrimary,readCall,hn]
  · have hen:Ends 0 ts:=by
     intro t ht
     cases ts with
     | nil=>simp at ht
     | cons u us=>
      obtain rfl : u=t:=by simpa using ht
      cases u with
      | symbol c=>simpa [continues] using hts
      | word w=>simp [continues]
      | _=>rfl
    simp [readPrimary_word hen,hw]
 simp [readLevel,readOperator,readComparison,hp]

lemma readPrimary_int {inner:ExprReader} (n:ℤ) (rest:List Token) :
 readPrimary inner (intTokens n++rest)=some (.int n,rest) := by
 unfold intTokens
 split_ifs with hn
 · simp only [cons_append,nil_append,readPrimary]
   rw [Int.ofNat_natAbs_of_nonpos (by omega),Int.neg_neg]
 · simp only [cons_append,nil_append,readPrimary]
   rw [Int.natAbs_of_nonneg (by omega)]

lemma readInts_tokens {ns:List ℤ} (h:ns≠[]) (rest:List Token) :
 readInts (intsTokens ns++rest)=some (ns,rest) := by
 induction ns with
 | nil=>exact absurd rfl h
 | cons n ns ih=>
  have hng:n<0 → -((n.natAbs : ℤ))=n:=fun hn=>by omega
  have hp:¬n<0 → (n.natAbs : ℤ)=n:=fun hn=>by omega
  cases ns with
  | nil=>
   by_cases hn : n<0
   · simp only [intsTokens,intTokens,if_pos hn,cons_append,nil_append,readInts,hng hn]
   · simp only [intsTokens,intTokens,if_neg hn,cons_append,nil_append,readInts,hp hn]
  | cons m ns=>
   have ih:=ih (by simp)
   have ht:intsTokens (n::m::ns)=intTokens n ++ .symbol ',' :: intsTokens (m::ns):=
    rfl
   rw [ht]
   by_cases hn : n<0
   · simp only [intTokens,if_pos hn,cons_append,nil_append,readInts,ih,hng hn]
     rfl
   · simp only [intTokens,if_neg hn,cons_append,nil_append,readInts,ih,hp hn]
     rfl

lemma reads (e:Expr) (hw:e.WellFormed) : Reads e := by
 induction e with
 | name s=>
  refine Reads.of_level fun fuel _ rest hr=>?_
  obtain ⟨-,hs⟩:=hw
  have hwr:readWord s=some (.name s):=by
   simp only [reserved,mem_cons,not_mem_nil,or_false,not_or] at hs
   simp [readWord,reserved,hs]
  simp only [Expr.level,Expr.tokens,readLevel,cons_append,nil_append,readPrimary_word hr,hwr,
   Option.map_some]
 | quoted s=>exact Reads.of_level fun fuel _ rest _=>rfl
 | hole s=>exact Reads.of_level fun fuel _ rest _=>rfl
 | int n=>exact Reads.of_level fun fuel _ rest _=>readPrimary_int n rest
 | bool b=>
  refine Reads.of_level fun fuel _ rest hr=>?_
  cases b <;> simp [Expr.level,Expr.tokens,readLevel,readPrimary_word hr,readWord]
 | null=>
  refine Reads.of_level fun fuel _ rest hr=>?_
  simp [Expr.level,Expr.tokens,readLevel,readPrimary_word hr,readWord]
 | text s=>exact Reads.of_level fun fuel _ rest _=>rfl
 | emptyArray=>exact Reads.of_level fun fuel _ rest _=>rfl
 | emptyMap=>
  refine Reads.of_level fun fuel _ rest _=>?_
  simp [Expr.level,Expr.tokens,readLevel,readPrimary,readCall]
 | apply f a ih=>
  refine Reads.of_level fun fuel hf rest hr=>?_
  have ha:=(ih hw).inner hf (ends_symbol (Or.inl rfl) rest)
  have hn:=Function.ofName_name f
  have hc:readCall (readExpr fuel) f.name (a.tokens ++ .symbol ')' :: rest) =
    some (.apply f a,rest):=by
   cases f <;> simp [readCall,Function.name,ha] at hn ⊢ <;> simp [hn]
  rw [Expr.tokens,append_assoc,append_assoc]
  exact hc
 | tupleElement a element ih=>
  refine Reads.of_level fun fuel hf rest hr=>?_
  have ha:=(ih hw).inner hf
   (ends_symbol (Or.inr rfl) (.text element :: .symbol ')' :: rest))
  simp [Expr.level,Expr.tokens,readLevel,readPrimary,readCall,ha]
 | accurateCast a type ih=>
  refine Reads.of_level fun fuel hf rest hr=>?_
  have ha:=(ih hw).inner hf (ends_symbol (Or.inr rfl) (.text type :: .symbol ')' :: rest))
  simp [Expr.level,Expr.tokens,readLevel,readPrimary,readCall,ha]
 | arrayAll x body a ihbody iha=>
  refine Reads.of_level fun fuel hf rest hr=>?_
  simp only [Expr.depth] at hf
  have ha:readExpr fuel _=_:=(iha hw.2.2).inner (by omega) (ends_symbol (Or.inl rfl) rest)
  have hbd:readExpr fuel _=_:=(ihbody hw.2.1).inner (by omega)
   (ends_symbol (Or.inr rfl) (a.tokens ++ .symbol ')' :: rest))
  simp [Expr.level,Expr.tokens,readLevel,readPrimary,readCall,ha,hbd]
 | paren a ih=>
  refine Reads.of_level fun fuel hf rest hr=>?_
  have ha:=(ih hw).inner hf (ends_symbol (Or.inl rfl) rest)
  simp [Expr.level,Expr.tokens,readLevel,readPrimary,ha]
 | eq a b iha ihb=>
  refine Reads.of_level fun fuel hf rest hr=>?_
  simp only [Expr.depth] at hf
  obtain ⟨hwa,hwb,hla,hlb⟩:=hw
  have ha:=iha hwa fuel (by omega) 0 (by omega) (.symbol '=' :: (b.tokens++rest))
   (by simp [Ends,continues])
  have hb:=ihb hwb fuel (by omega) 0 (by omega) rest (hr.mono (by simp [Expr.level]))
  simp only [readLevel] at ha hb
  simp [Expr.level,Expr.tokens,readLevel,readOperator,readComparison,ha,hb]
 | isIn a ns ih=>
  refine Reads.of_level fun fuel hf rest hr=>?_
  obtain ⟨hwa,hla,hns⟩:=hw
  have ha:=ih hwa fuel hf 0 (by omega)
   (.word "IN" :: .symbol '(' :: (intsTokens ns++rest)) (by simp [Ends,continues])
  simp only [readLevel] at ha
  simp [Expr.level,Expr.tokens,readLevel,readOperator,readComparison,ha,readInts_tokens hns]
 | not a ih=>
  refine Reads.of_level fun fuel hf rest hr=>?_
  have ha:=ih hw.1 fuel hf 1 hw.2 rest (hr.mono (by simp [Expr.level]))
  exact readNegation_not (readLevel_not _) ha
 | and a b iha ihb=>
  refine Reads.of_level fun fuel hf rest hr=>?_
  simp only [Expr.depth] at hf
  obtain ⟨hwa,hwb,hla,hlb⟩:=hw
  have ha:=iha hwa fuel (by omega) 2 hla (.word "AND" :: (b.tokens++rest))
   (by simp [Ends,continues])
  have hb:=ihb hwb fuel (by omega) 2 hlb rest (hr.mono (by simp [Expr.level]))
  rw [Expr.tokens,append_assoc,cons_append]
  exact readBinary_operator ha hb
 | or a b iha ihb=>
  refine Reads.of_level fun fuel hf rest hr=>?_
  simp only [Expr.depth] at hf
  obtain ⟨hwa,hwb,hla,hlb⟩:=hw
  have ha:=iha hwa fuel (by omega) 3 hla (.word "OR" :: (b.tokens++rest))
   (by simp [Ends,continues])
  have hb:=ihb hwb fuel (by omega) 3 hlb rest (hr.mono (by simp [Expr.level]))
  rw [Expr.tokens,append_assoc,cons_append]
  exact readBinary_operator ha hb

lemma depth_le_tokens (e:Expr) : e.depth≤e.tokens.length := by
 induction e with
 | arrayAll x body a ihbody iha=>simp [Expr.depth,Expr.tokens];omega
 | eq a b iha ihb=>simp [Expr.depth,Expr.tokens];omega
 | and a b iha ihb=>simp [Expr.depth,Expr.tokens];omega
 | or a b iha ihb=>simp [Expr.depth,Expr.tokens];omega
 | isIn a ns ih=>simp [Expr.depth,Expr.tokens];omega
 | apply f a ih=>simp [Expr.depth,Expr.tokens];omega
 | tupleElement a element ih=>simp [Expr.depth,Expr.tokens];omega
 | accurateCast a type ih=>simp [Expr.depth,Expr.tokens];omega
 | paren a ih=>simp [Expr.depth,Expr.tokens];omega
 | not a ih=>simp [Expr.depth,Expr.tokens];omega
 | _=>simp [Expr.depth]

lemma lexes_int (n:ℤ) : Lexes (toString n) (intTokens n) := by
 by_cases hn : n<0
 · obtain ⟨k,rfl⟩:=Int.eq_negSucc_of_lt_zero hn
   rw [intTokens,if_pos hn]
   exact lexes_minus (k+1)
 · obtain ⟨k,rfl⟩:=Int.eq_ofNat_of_zero_le (by omega:0≤n)
   rw [intTokens,if_neg hn]
   exact lexes_number k

lemma closed_ints {ns:List ℤ} (h:ns≠[]) :
 Closed (String.intercalate ", " (ns.map toString)++")") (intsTokens ns) := by
 induction ns with
 | nil=>exact absurd rfl h
 | cons n ns ih=>
  cases ns with
  | nil=>
   simpa [intsTokens,String.intercalate_singleton] using
    (lexes_int n).append_closed (by decide) closed_rparen
  | cons m ns=>
   have hr:=((lexes_int n).append_closed (by decide) closed_comma).append (ih (by simp))
   simpa [intsTokens,String.intercalate_cons_cons,String.append_assoc] using hr

lemma lexes_expr (e:Expr) (hw:e.WellFormed) : Lexes e.render e.tokens := by
 induction e with
 | name s=>exact lexes_word hw.1
 | quoted s=>exact (closed_quoteName s).lexes
 | hole s=>exact (closed_hole hw).lexes
 | int n=>exact lexes_int n
 | bool b=>cases b <;> exact lexes_word (by decide)
 | null=>exact lexes_word (by decide)
 | text s=>exact (closed_quoteText s).lexes
 | emptyArray=>exact (show Closed "[]" _ from rfl).lexes
 | emptyMap=>exact (show Closed "map()" _ from rfl).lexes
 | apply f a ih=>exact (closed_call (by cases f <;> decide) (ih hw)).lexes
 | tupleElement a element ih=>
  have h:=(closed_call (show isWord "tupleElement" = true by decide)
   (((ih hw).append_closed (by decide) closed_comma).append (closed_quoteText element)).lexes).lexes
  simpa [Expr.render,Expr.tokens] using h
 | accurateCast a type ih=>
  have h:=(closed_call (show isWord "accurateCast" = true by decide)
   (((ih hw).append_closed (by decide) closed_comma).append (closed_quoteText type)).lexes).lexes
  simpa [Expr.render,Expr.tokens] using h
 | arrayAll x body a ihbody iha=>
  have ha:Closed " -> " [.arrow]:=rfl
  have hl:=((lexes_word hw.1).append_closed (by decide) ha).append_lexes (ihbody hw.2.1)
  have h:=(closed_call (show isWord "arrayAll" = true by decide)
   (hl.append_lexes (by decide) closed_comma (iha hw.2.2))).lexes
  simpa [Expr.render,Expr.tokens] using h
 | paren a ih=>
  exact (((show Closed "(" [.symbol '('] from rfl).append_lexes (ih hw)).append_closed
   (by decide) closed_rparen).lexes
 | eq a b iha ihb=>
  have heq:Closed " = " [.symbol '=']:=rfl
  simpa [Expr.render,Expr.tokens] using (iha hw.1).append_lexes (by decide) heq (ihb hw.2.1)
 | isIn a ns ih=>
  have hin:Closed " IN (" [.word "IN",.symbol '(']:=rfl
  have h:=((ih hw.1).append_closed (by decide) hin).append (closed_ints hw.2.2)
  simpa [Expr.render,Expr.tokens,String.append_assoc] using h.lexes
 | not a ih=>exact (show Closed "NOT " [.word "NOT"] from rfl).append_lexes (ih hw.1)
 | and a b iha ihb=>
  have han:Closed " AND " [.word "AND"]:=rfl
  simpa [Expr.render,Expr.tokens] using (iha hw.1).append_lexes (by decide) han (ihb hw.2.1)
 | or a b iha ihb=>
  have hor:Closed " OR " [.word "OR"]:=rfl
  simpa [Expr.render,Expr.tokens] using (iha hw.1).append_lexes (by decide) hor (ihb hw.2.1)

lemma parseExpr_render (e:Expr) (hw:e.WellFormed) : parseExpr e.render=some e := by
 have hr:=reads e hw e.tokens.length (depth_le_tokens e) 4 (level_le e) []
  (by simp [Ends])
 rw [append_nil] at hr
 simp [parseExpr,(lexes_expr e hw).lex,readExpr,hr]
end InvariantProtocol.SqlRoundTrip
