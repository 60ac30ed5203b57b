import InvariantProtocol.SqlText
import Mathlib.Data.Int.Notation
import Mathlib.Data.List.Forall2
/-! Column types of a columnar SQL database, their text, and the values they admit. -/
namespace InvariantProtocol.SqlType
open SqlText

inductive BaseType where
 | bool | int32 | int64 | uint32 | uint64 | float32 | float64 | string | uuid
 deriving DecidableEq

inductive ColumnType where
 | base (type:BaseType)
 | dateTime64 (precision:ℕ) (timezone:String)
 | decimal (precision scale:ℕ)
 | fixedString (length:ℕ)
 | nullable (inner:ColumnType)
 | array (element:ColumnType)
 | map (key value:ColumnType)
 | tuple (names:List String) (types:List ColumnType)

def BaseType.name : BaseType → String
 | .bool=>"Bool"
 | .int32=>"Int32"
 | .int64=>"Int64"
 | .uint32=>"UInt32"
 | .uint64=>"UInt64"
 | .float32=>"Float32"
 | .float64=>"Float64"
 | .string=>"String"
 | .uuid=>"UUID"

def baseTypes : List BaseType :=
 [.bool,.int32,.int64,.uint32,.uint64,.float32,.float64,.string,.uuid]

def BaseType.ofName (name:String) : Option BaseType:=baseTypes.find? (·.name=name)

lemma BaseType.ofName_name (b:BaseType) : ofName b.name=some b := by
 cases b <;> decide

mutual

def ColumnType.render : ColumnType → String
 | .base b=>b.name
 | .dateTime64 precision timezone=>
  call "DateTime64" (toString precision++", "++quoteText timezone)
 | .decimal precision scale=>
  call "Decimal" (toString precision++", "++toString scale)
 | .fixedString length=>call "FixedString" (toString length)
 | .nullable t=>call "Nullable" t.render
 | .array t=>call "Array" t.render
 | .map k v=>call "Map" (k.render++", "++v.render)
 | .tuple names types=>call "Tuple" (String.intercalate ", " (renderElements names types))

def renderElements : List String → List ColumnType → List String
 | name::names,t::types=>(quoteName name++" "++t.render)::renderElements names types
 | _,_=>[]
end

mutual

def ColumnType.tokens : ColumnType → List Token
 | .base b=>[.word b.name]
 | .dateTime64 precision timezone=>
  [.word "DateTime64",.symbol '(',.number precision,.symbol ',',.text timezone,.symbol ')']
 | .decimal precision scale=>
  [.word "Decimal",.symbol '(',.number precision,.symbol ',',.number scale,.symbol ')']
 | .fixedString length=>[.word "FixedString",.symbol '(',.number length,.symbol ')']
 | .nullable t=>[.word "Nullable",.symbol '(']++t.tokens++[.symbol ')']
 | .array t=>[.word "Array",.symbol '(']++t.tokens++[.symbol ')']
 | .map k v=>[.word "Map",.symbol '(']++k.tokens++[.symbol ',']++v.tokens++[.symbol ')']
 | .tuple names types=>[.word "Tuple",.symbol '(']++elementTokens names types

def elementTokens : List String → List ColumnType → List Token
 | name::names,t::types=>
  .quoted name::t.tokens ++
   (if types=[] then [.symbol ')'] else .symbol ',' :: elementTokens names types)
 | _,_=>[]
end

mutual

/-- A tuple has a name for each element, and at least one. -/
def ColumnType.WellFormed : ColumnType → Prop
 | .nullable t=>t.WellFormed
 | .array t=>t.WellFormed
 | .map k v=>k.WellFormed ∧ v.WellFormed
 | .tuple names types=>types≠[] ∧ ElementsWellFormed names types
 | _=>True

def ElementsWellFormed : List String → List ColumnType → Prop
 | [],[]=>True
 | _::names,t::types=>t.WellFormed ∧ ElementsWellFormed names types
 | _,_=>False
end

mutual

def ColumnType.depth : ColumnType → ℕ
 | .nullable t=>t.depth+1
 | .array t=>t.depth+1
 | .map k v=>max k.depth v.depth+1
 | .tuple _ types=>elementsDepth types+1
 | _=>1

def elementsDepth : List ColumnType → ℕ
 | []=>0
 | t::types=>max t.depth (elementsDepth types)
end

abbrev TypeReader:=List Token → Option (ColumnType×List Token)

def readElements (inner:TypeReader) :
  ℕ → List Token → Option ((List String×List ColumnType)×List Token)
 | n+1,.quoted name::ts=>do
  match ← inner ts with
  | (t,.symbol ')' :: ts)=>some (([name],[t]),ts)
  | (t,.symbol ',' :: ts)=>
   let ((names,types),ts) ← readElements inner n ts
   some ((name::names,t::types),ts)
  | _=>none
 | _,_=>none

def readApplied (inner:TypeReader) (name:String) (ts:List Token) :
  Option (ColumnType×List Token) :=
 match name,ts with
 | "DateTime64",.number p :: .symbol ',' :: .text zone :: .symbol ')' :: ts=>
  some (.dateTime64 p zone,ts)
 | "Decimal",.number p :: .symbol ',' :: .number s :: .symbol ')' :: ts=>some (.decimal p s,ts)
 | "FixedString",.number n :: .symbol ')' :: ts=>some (.fixedString n,ts)
 | "Nullable",ts=>do
  let (t,.symbol ')' :: ts) ← inner ts | none
  some (.nullable t,ts)
 | "Array",ts=>do
  let (t,.symbol ')' :: ts) ← inner ts | none
  some (.array t,ts)
 | "Map",ts=>do
  let (k,.symbol ',' :: ts) ← inner ts | none
  let (v,.symbol ')' :: ts) ← inner ts | none
  some (.map k v,ts)
 | "Tuple",ts=>do
  let ((names,types),ts) ← readElements inner ts.length ts
  some (.tuple names types,ts)
 | _,_=>none

def readType : ℕ → TypeReader
 | fuel+1,.word name :: .symbol '(' :: ts=>readApplied (readType fuel) name ts
 | _+1,.word name::ts=>(BaseType.ofName name).map fun b=>(.base b,ts)
 | _,_=>none

def parseType (s:String) : Option ColumnType:=do
 let ts ← lex s
 let (t,[]) ← readType ts.length ts | none
 some t

-- A base type is read as such only where no parenthesis follows it.
def NotApplied (ts:List Token) : Prop:=ts.head?≠some (.symbol '(')

lemma readType_base (b:BaseType) (fuel:ℕ) {rest:List Token} (h:NotApplied rest) :
 readType (fuel+1) (.word b.name::rest)=some (.base b,rest) := by
 unfold NotApplied at h
 rw [readType]
 · simp [BaseType.ofName_name]
 · intro ts hts
   simp [hts] at h

mutual

lemma readType_tokens : (t:ColumnType) → t.WellFormed → (fuel:ℕ) → t.depth≤fuel →
 (rest:List Token) → NotApplied rest → readType fuel (t.tokens++rest)=some (t,rest)
 | t,hw,0,hd,rest,hr=>by
  cases t <;> simp [ColumnType.depth] at hd
 | .base b,hw,fuel+1,hd,rest,hr=>readType_base b fuel hr
 | .dateTime64 p zone,hw,fuel+1,hd,rest,hr=>by
  simp [ColumnType.tokens,readType,readApplied]
 | .decimal p s,hw,fuel+1,hd,rest,hr=>by
  simp [ColumnType.tokens,readType,readApplied]
 | .fixedString n,hw,fuel+1,hd,rest,hr=>by
  simp [ColumnType.tokens,readType,readApplied]
 | .nullable t,hw,fuel+1,hd,rest,hr=>by
  have ht:=readType_tokens t hw fuel (by simpa [ColumnType.depth] using hd)
   (.symbol ')' :: rest) (by simp [NotApplied])
  simp [ColumnType.tokens,readType,readApplied,ht]
 | .array t,hw,fuel+1,hd,rest,hr=>by
  have ht:=readType_tokens t hw fuel (by simpa [ColumnType.depth] using hd)
   (.symbol ')' :: rest) (by simp [NotApplied])
  simp [ColumnType.tokens,readType,readApplied,ht]
 | .map k v,hw,fuel+1,hd,rest,hr=>by
  simp only [ColumnType.depth] at hd
  have hv:=readType_tokens v hw.2 fuel (by omega) (.symbol ')' :: rest) (by simp [NotApplied])
  have hk:=readType_tokens k hw.1 fuel (by omega)
   (.symbol ',' :: (v.tokens ++ .symbol ')' :: rest)) (by simp [NotApplied])
  simp [ColumnType.tokens,readType,readApplied,hk,hv]
 | .tuple names types,hw,fuel+1,hd,rest,hr=>by
  simp only [ColumnType.depth] at hd
  have hl:=length_le_elementTokens names types hw.2
  have ht:=readElements_tokens names types hw.1 hw.2 fuel (by omega)
   ((elementTokens names types).length+rest.length) (by omega) rest
  simp [ColumnType.tokens,readType,readApplied,ht]

lemma readElements_tokens : (names:List String) → (types:List ColumnType) → types≠[] →
 ElementsWellFormed names types → (fuel:ℕ) → elementsDepth types≤fuel → (n:ℕ) →
 types.length≤n → (rest:List Token) →
 readElements (readType fuel) n (elementTokens names types++rest)=some ((names,types),rest)
 | names,[],hne,hw,fuel,hd,n,hn,rest=>absurd rfl hne
 | [],_::_,hne,hw,fuel,hd,n,hn,rest=>hw.elim
 | name::names,[t],hne,hw,fuel,hd,n+1,hn,rest=>by
  have ht:=readType_tokens t hw.1 fuel (by simpa [elementsDepth] using hd)
   (.symbol ')' :: rest) (by simp [NotApplied])
  cases names with
  | nil=>simp [elementTokens,readElements,ht]
  | cons _ _=>exact hw.2.elim
 | name::names,t::u::types,hne,hw,fuel,hd,n+1,hn,rest=>by
  simp only [elementsDepth] at hd
  have hr:=readElements_tokens names (u::types) (by simp) hw.2 fuel
   (by simp only [elementsDepth];omega) n (by simpa using hn) rest
  have ht:=readType_tokens t hw.1 fuel (by omega)
   (.symbol ',' :: (elementTokens names (u::types)++rest)) (by simp [NotApplied])
  simp [elementTokens,readElements,ht,hr]

lemma length_le_elementTokens : (names:List String) → (types:List ColumnType) →
 ElementsWellFormed names types → types.length≤(elementTokens names types).length
 | names,[],hw=>by simp
 | [],_::_,hw=>hw.elim
 | name::names,[t],hw=>by simp [elementTokens]
 | name::names,t::u::types,hw=>by
  have:=length_le_elementTokens names (u::types) hw.2
  simp only [elementTokens,reduceCtorEq,if_false,List.length_append,List.length_cons] at this ⊢
  omega

lemma depth_le_tokens : (t:ColumnType) → t.WellFormed → t.depth≤t.tokens.length
 | .base _,hw=>by simp [ColumnType.depth,ColumnType.tokens]
 | .dateTime64 _ _,hw=>by simp [ColumnType.depth,ColumnType.tokens]
 | .decimal _ _,hw=>by simp [ColumnType.depth,ColumnType.tokens]
 | .fixedString _,hw=>by simp [ColumnType.depth,ColumnType.tokens]
 | .nullable t,hw=>by
  have:=depth_le_tokens t hw
  simp [ColumnType.depth,ColumnType.tokens]
  omega
 | .array t,hw=>by
  have:=depth_le_tokens t hw
  simp [ColumnType.depth,ColumnType.tokens]
  omega
 | .map k v,hw=>by
  have hk:=depth_le_tokens k hw.1
  have hv:=depth_le_tokens v hw.2
  simp [ColumnType.depth,ColumnType.tokens]
  omega
 | .tuple names types,hw=>by
  have:=elementsDepth_le_tokens names types hw.2
  simp [ColumnType.depth,ColumnType.tokens]
  omega

lemma elementsDepth_le_tokens : (names:List String) → (types:List ColumnType) →
 ElementsWellFormed names types → elementsDepth types≤(elementTokens names types).length
 | names,[],hw=>by simp [elementsDepth]
 | [],_::_,hw=>hw.elim
 | name::names,t::types,hw=>by
  have ht:=depth_le_tokens t hw.1
  have hr:=elementsDepth_le_tokens names types hw.2
  cases types with
  | nil=>simp [elementsDepth,elementTokens];omega
  | cons u types=>simp [elementsDepth,elementTokens] at hr ⊢;omega
end

mutual

lemma lexes_type : (t:ColumnType) → t.WellFormed → Lexes t.render t.tokens
 | .base b,hw=>lexes_word (by cases b <;> decide)
 | .dateTime64 p zone,hw=>
  (closed_call (by decide) (((lexes_number p).append_closed (by decide) closed_comma).append
   (closed_quoteText zone)).lexes).lexes
 | .decimal p s,hw=>
  (closed_call (by decide) ((lexes_number p).append_lexes (by decide) closed_comma
   (lexes_number s))).lexes
 | .fixedString n,hw=>(closed_call (by decide) (lexes_number n)).lexes
 | .nullable t,hw=>(closed_call (by decide) (lexes_type t hw)).lexes
 | .array t,hw=>(closed_call (by decide) (lexes_type t hw)).lexes
 | .map k v,hw=>by
  have h:=closed_call (show isWord "Map" = true by decide)
   ((lexes_type k hw.1).append_lexes (by decide) closed_comma (lexes_type v hw.2))
  simpa [ColumnType.render,ColumnType.tokens] using h.lexes
 | .tuple names types,hw=>by
  obtain ⟨ts,hl,heq⟩:=lexes_elements names types hw.1 hw.2
  have h:=(closed_call (show isWord "Tuple" = true by decide) hl).lexes
  rw [ColumnType.render,ColumnType.tokens,heq]
  simpa using h

lemma lexes_elements : (names:List String) → (types:List ColumnType) → types≠[] →
 ElementsWellFormed names types →
 ∃ts,Lexes (String.intercalate ", " (renderElements names types)) ts ∧
  elementTokens names types=ts++[.symbol ')']
 | names,[],hne,hw=>absurd rfl hne
 | [],_::_,hne,hw=>hw.elim
 | name::names,[t],hne,hw=>by
  cases names with
  | cons _ _=>exact hw.2.elim
  | nil=>
   have h:=((closed_quoteName name).append closed_space).append_lexes (lexes_type t hw.1)
   have hr:renderElements [name] [t]=[quoteName name++" "++t.render]:=by
    simp [renderElements]
   rw [hr,String.intercalate_singleton]
   exact ⟨_,h,by simp [elementTokens]⟩
 | name::names,t::u::types,hne,hw=>by
  cases names with
  | nil=>exact hw.2.elim
  | cons next names=>
   obtain ⟨ts,hl,heq⟩:=lexes_elements (next::names) (u::types) (by simp) hw.2
   have h:=(((closed_quoteName name).append closed_space).append_lexes
    (lexes_type t hw.1)).append_lexes (by decide) closed_comma hl
   rw [renderElements,renderElements,String.intercalate_cons_cons,←renderElements]
   refine ⟨_,h,?_⟩
   rw [elementTokens,heq]
   simp
end

lemma parseType_render (t:ColumnType) (hw:t.WellFormed) : parseType t.render=some t := by
 have hr:=readType_tokens t hw t.tokens.length (depth_le_tokens t hw) [] (by simp [NotApplied])
 rw [List.append_nil] at hr
 simp [parseType,(lexes_type t hw).lex,hr]
end InvariantProtocol.SqlType
