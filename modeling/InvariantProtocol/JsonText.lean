import InvariantProtocol.JsonValue
/-! JSON texts: a reader for the grammar of RFC 8259 in a dialect, and documents that it reads back
under any escaping it undoes. -/
namespace InvariantProtocol.JsonText
open List JsonValue

/-- A piece of a string literal: a character, or a code unit written as `\uXXXX`. -/
inductive StringUnit where
 | char (c:Char)
 | escaped (u:ℕ)

def StringUnit.code : StringUnit → ℕ
 | .char c=>c.toNat
 | .escaped u=>u

def isHigh (u:ℕ) : Bool:=0xD800≤u && u<0xDC00

def isLow (u:ℕ) : Bool:=0xDC00≤u && u<0xE000

/-- Two escapes that form a surrogate pair are one code point. -/
def combine : List StringUnit → Text
 | .escaped high :: .escaped low::units=>
  if isHigh high && isLow low then
   (0x10000+(high-0xD800)*0x400+(low-0xDC00))::combine units
  else high::combine (.escaped low::units)
 | unit::units=>unit.code::combine units
 | []=>[]

def hexValue (c:Char) : Option ℕ :=
 if '0' ≤ c ∧ c ≤ '9' then some (c.toNat-48)
 else if 'a' ≤ c ∧ c ≤ 'f' then some (c.toNat-87)
 else if 'A' ≤ c ∧ c ≤ 'F' then some (c.toNat-55)
 else none

def readHex : List Char → Option (ℕ×List Char)
 | a::b::c::d::rest=>do
  let a ← hexValue a
  let b ← hexValue b
  let c ← hexValue c
  let d ← hexValue d
  some (((a*16+b)*16+c)*16+d,rest)
 | _=>none

def simpleEscapes : List (Char×Char) :=
 [('"','"'),('\\','\\'),('/','/'),('b','\x08'),('f','\x0c'),('n','\n'),('r','\r'),
  ('t','\t')]

/-- The next piece of a string literal that does not end here. -/
def readUnit : List Char → Option (StringUnit×List Char)
 | '\\' :: 'u' :: rest=>(readHex rest).map fun (u,rest)=>(.escaped u,rest)
 | '\\' :: c::rest=>(simpleEscapes.lookup c).map fun d=>(.char d,rest)
 | c::rest=>if c.toNat<0x20 then none else some (.char c,rest)
 | []=>none

def readUnits : ℕ → List Char → Option (List StringUnit×List Char)
 | 0,_=>none
 | _,[]=>none
 | fuel+1,c::text=>
  if c = '"' then some ([],text)
  else do
   let (unit,rest) ← readUnit (c::text)
   let (units,rest) ← readUnits fuel rest
   some (unit::units,rest)

def readString (text:List Char) : Option (Text×List Char) :=
 (readUnits text.length text).map fun (units,rest)=>(combine units,rest)

/-- What readers add to the grammar and where they give up. -/
structure Dialect where
 constants : List (List Char×Value) :=
  [("null".toList,.null),("true".toList,.bool true),("false".toList,.bool false)]
 maxIntegerDigits : Option ℕ:=none
 maxDepth : ℕ

def isSpace (c:Char) : Bool:=c = ' ' || c = '\t' || c = '\n' || c = '\r'

/-- What follows the character, if it is the next one after white space. -/
def next (c:Char) (text:List Char) : Option (List Char) :=
 match text.dropWhile isSpace with
 | d::rest=>if d=c then some rest else none
 | []=>none

def digitOf (c:Char) : Fin 10:=Fin.ofNat 10 (c.toNat-48)

def natOf (digits:List Char) : ℕ:=digits.foldl (fun n c=>n*10+(digitOf c).val) 0

def readFraction (text:List Char) : Option (List (Fin 10)×List Char) :=
 match text with
 | '.' :: rest=>
  let digits:=rest.takeWhile Char.isDigit
  if digits=[] then none else some (digits.map digitOf,rest.dropWhile Char.isDigit)
 | _=>some ([],text)

def readSign : List Char → Bool×List Char
 | '-' :: rest=>(true,rest)
 | '+' :: rest=>(false,rest)
 | rest=>(false,rest)

def readExponent (text:List Char) : Option (Option ℤ×List Char) :=
 match text with
 | c::rest=>
  if c = 'e' ∨ c = 'E' then
   let (negative,rest):=readSign rest
   let digits:=rest.takeWhile Char.isDigit
   let value : ℤ:=natOf digits
   if digits=[] then none
   else some (some (if negative then -value else value),rest.dropWhile Char.isDigit)
  else some (none,text)
 | []=>some (none,text)

def readNumber (dialect:Dialect) (text:List Char) : Option (Value×List Char):=do
 let (negative,rest):=match text with
  | '-' :: rest=>(true,rest)
  | _=>(false,text)
 let whole:=rest.takeWhile Char.isDigit
 if whole=[] ∨ (whole.head?=some '0' ∧ whole.length≠1) then none
 let (fraction,rest) ← readFraction (rest.dropWhile Char.isDigit)
 let (exponent,rest) ← readExponent rest
 if fraction=[] ∧ exponent=none ∧ dialect.maxIntegerDigits.any (· < whole.length) then none
 some (.number { negative,whole:=natOf whole,fraction,exponent },rest)

def readScalar (dialect:Dialect) (text:List Char) : Option (Value×List Char) :=
 match dialect.constants.find? fun constant=>constant.1.isPrefixOf text with
 | some (name,v)=>some (v,text.drop name.length)
 | none=>readNumber dialect text

mutual

/-- `depth` containers may still be opened. -/
def readValue (dialect:Dialect) : ℕ → ℕ → List Char → Option (Value×List Char)
 | 0,_,_=>none
 | fuel+1,depth,text=>
  match text.dropWhile isSpace with
  | []=>none
  | c::rest=>
   if c = '"' then (readString rest).map fun (s,rest)=>(.string s,rest)
   else if c = '[' then
    if depth=0 then none
    else match next ']' rest with
     | some rest=>some (.array [],rest)
     | none=>(readItems dialect fuel (depth-1) rest).map fun (items,rest)=>
       (.array items,rest)
   else if c = '\x7b' then
    if depth=0 then none
    else match next '\x7d' rest with
     | some rest=>some (.object [],rest)
     | none=>(readMembers dialect fuel (depth-1) rest).map fun (members,rest)=>
       (.object members,rest)
   else readScalar dialect (c::rest)

def readItems (dialect:Dialect) : ℕ → ℕ → List Char → Option (List Value×List Char)
 | 0,_,_=>none
 | fuel+1,depth,text=>do
  let (v,rest) ← readValue dialect fuel depth text
  match next ']' rest with
  | some rest=>some ([v],rest)
  | none=>
   let rest ← next ',' rest
   let (items,rest) ← readItems dialect fuel depth rest
   some (v::items,rest)

def readMembers (dialect:Dialect) : ℕ → ℕ → List Char → Option (Members×List Char)
 | 0,_,_=>none
 | fuel+1,depth,text=>do
  let rest ← next '"' text
  let (name,rest) ← readString rest
  let rest ← next ':' rest
  let (v,rest) ← readValue dialect fuel depth rest
  match next '\x7d' rest with
  | some rest=>some ([(name,v)],rest)
  | none=>
   let rest ← next ',' rest
   let (members,rest) ← readMembers dialect fuel depth rest
   some ((name,v)::members,rest)
end

/-- Every call below reads at least one character of its own, or calls one that does. -/
def fuelFor (text:List Char) : ℕ:=2*text.length+2

def parse (dialect:Dialect) (text:List Char) : Option Value :=
 match readValue dialect (fuelFor text) dialect.maxDepth text with
 | some (v,rest)=>if rest.all isSpace then some v else none
 | none=>none

section

inductive Doc where
 | string (s:List Char)
 | array (items:List Doc)
 | object (members:List (List Char×Doc))

mutual

def Doc.value : Doc → Value
 | .string s=>.string (s.map Char.toNat)
 | .array items=>.array (values items)
 | .object members=>.object (memberValues members)

def values : List Doc → List Value
 | []=>[]
 | d::items=>d.value::values items

def memberValues : List (List Char×Doc) → Members
 | []=>[]
 | (name,d)::members=>(name.map Char.toNat,d.value)::memberValues members
end

mutual

def Doc.depth : Doc → ℕ
 | .string _=>0
 | .array items=>itemsDepth items+1
 | .object members=>membersDepth members+1

def itemsDepth : List Doc → ℕ
 | []=>0
 | d::items=>max d.depth (itemsDepth items)

def membersDepth : List (List Char×Doc) → ℕ
 | []=>0
 | (_,d)::members=>max d.depth (membersDepth members)
end

variable (escape:Char → List Char)
def quote (s:List Char) : List Char := '"' :: (s.flatMap escape++['"'])

mutual

def Doc.print : Doc → List Char
 | .string s=>quote escape s
 | .array items => '[' :: (printItems items++[']'])
 | .object members => '\x7b' :: (printMembers members++['\x7d'])

def printItems : List Doc → List Char
 | []=>[]
 | [d]=>d.print
 | d::items=>d.print ++ ',' :: printItems items

def printMembers : List (List Char×Doc) → List Char
 | []=>[]
 | [(name,d)]=>quote escape name ++ ':' :: d.print
 | (name,d)::members=>quote escape name ++ ':' :: (d.print ++ ',' :: printMembers members)
end

/-- The reader takes every character from what it is written as. -/
structure Undone : Prop where
 starts : ∀c,∃d cs,escape c=d::cs ∧ d ≠ '"'
 reads : ∀c rest,∃unit : StringUnit,
  readUnit (escape c++rest)=some (unit,rest) ∧ unit.code=c.toNat
end

lemma toNat_not_high (c:Char) : isHigh c.toNat=false := by
 have hv:c.toNat<0xD800 ∨ (0xDFFF<c.toNat ∧ c.toNat<0x110000):=c.valid
 simp only [isHigh,Bool.and_eq_false_iff,decide_eq_false_iff_not]
 omega

lemma combine_cons {unit:StringUnit} (h:isHigh unit.code=false) (units:List StringUnit) :
 combine (unit::units)=unit.code::combine units := by
 cases unit with
 | char c=>
  rw [combine]
  simp
 | escaped u=>
  have hu:isHigh u=false:=h
  cases units with
  | nil=>rfl
  | cons second units=>
   cases second with
   | char c=>rfl
   | escaped low=>simp [combine,hu,StringUnit.code]

lemma combine_of_codes {units:List StringUnit} {s:List Char}
 (h:units.map StringUnit.code=s.map Char.toNat) : combine units=s.map Char.toNat := by
 induction units generalizing s with
 | nil=>
  rw [←h]
  rfl
 | cons unit units ih=>
  cases s with
  | nil=>simp at h
  | cons c s=>
   simp only [map_cons,List.cons.injEq] at h ⊢
   have hh:isHigh unit.code=false:=by rw [h.1,toNat_not_high]
   rw [combine_cons hh,h.1,ih h.2]

variable {escape:Char → List Char}
lemma Undone.length_le (he:Undone escape) (s:List Char) : s.length≤(s.flatMap escape).length := by
 induction s with
 | nil=>simp
 | cons c s ih=>
  obtain ⟨d,cs,heq,-⟩:=he.starts c
  rw [flatMap_cons,heq]
  simp only [length_cons,length_append]
  omega

lemma Undone.readUnits_quote (he:Undone escape) (s rest:List Char) (fuel:ℕ) (hf:s.length<fuel) :
 ∃units : List StringUnit,readUnits fuel (s.flatMap escape ++ '"' :: rest)=some (units,rest) ∧
  units.map StringUnit.code=s.map Char.toNat := by
 induction s generalizing fuel with
 | nil=>
  cases fuel with
  | zero=>omega
  | succ fuel=>exact ⟨[],by simp [readUnits],rfl⟩
 | cons c s ih=>
  cases fuel with
  | zero=>omega
  | succ fuel=>
   obtain ⟨d,cs,heq,hd⟩:=he.starts c
   obtain ⟨unit,hu,hcd⟩:=he.reads c (s.flatMap escape ++ '"' :: rest)
   obtain ⟨units,hun,hc⟩:=ih fuel (by simpa using hf)
   refine ⟨unit::units,?_,by simp [hcd,hc]⟩
   rw [flatMap_cons,append_assoc]
   rw [heq,cons_append] at hu ⊢
   rw [readUnits,if_neg hd,hu]
   simp [hun]

lemma Undone.readString_quote (he:Undone escape) (s rest:List Char) :
 readString (s.flatMap escape ++ '"' :: rest)=some (s.map Char.toNat,rest) := by
 have hl:=he.length_le s
 obtain ⟨units,hu,hc⟩:=he.readUnits_quote s rest
  (s.flatMap escape ++ '"' :: rest).length
  (by simp only [length_append,length_cons];omega)
 unfold readString
 rw [hu]
 simp [combine_of_codes hc]

lemma next_other {c d:Char} (h:isSpace d=false) (hne:d≠c) (rest:List Char) : next c (d::rest)=none := by
 simp [next,h,hne]

lemma Doc.print_starts (d:Doc) : ∃c cs,d.print escape=c::cs ∧ isSpace c=false ∧ c ≠ ']' ∧ c ≠ '\x7d' := by
 cases d with
 | string s=>exact ⟨'"',_,by rw [Doc.print,quote],by decide,by decide,by decide⟩
 | array items=>exact ⟨'[',_,by rw [Doc.print],by decide,by decide,by decide⟩
 | object members=>exact ⟨'\x7b',_,by rw [Doc.print],by decide,by decide,by decide⟩

lemma next_print (d:Doc) (rest:List Char) : next ']' (d.print escape++rest)=none := by
 obtain ⟨c,cs,heq,hs,hne,-⟩:=@Doc.print_starts escape d
 rw [heq,cons_append]
 exact next_other hs hne _

lemma next_quote (c:Char) (hc:c ≠ '"') (s rest:List Char) : next c (quote escape s++rest)=none := by
 rw [quote,cons_append]
 exact next_other (by decide) (Ne.symm hc) _

lemma printItems_cons (d e:Doc) (items:List Doc) :
 printItems escape (d::e::items)=d.print escape ++ ',' :: printItems escape (e::items) := by
 rw [printItems]
 simp

lemma printMembers_cons (name:List Char) (d:Doc) (m:List Char×Doc) (members:List (List Char×Doc)) :
 printMembers escape ((name,d)::m::members) =
  quote escape name ++ ':' :: (d.print escape ++ ',' :: printMembers escape (m::members)) := by
 rw [printMembers]
 simp

variable (dialect:Dialect)

mutual

lemma Undone.readValue_print (he:Undone escape) (d:Doc) (fuel depth:ℕ) (rest:List Char)
 (hf:(d.print escape).length≤fuel) (hd:d.depth≤depth) :
 readValue dialect fuel depth (d.print escape++rest)=some (d.value,rest) := by
 obtain ⟨fuel,rfl⟩ : ∃n,fuel=n+1:=by
  obtain ⟨c,cs,heq,-⟩:=@Doc.print_starts escape d
  rw [heq,length_cons] at hf
  exact ⟨fuel-1,by omega⟩
 match d with
 | .string s=>
  rw [Doc.print,quote,cons_append,append_assoc,readValue,Doc.value]
  simp [isSpace,he.readString_quote s rest]
 | .array []=>
  have ho:depth≠0:=by
   simp only [Doc.depth] at hd
   omega
  simp [Doc.print,printItems,readValue,isSpace,ho,next,Doc.value,values]
 | .array (e::items)=>
  have ho:depth≠0:=by
   simp only [Doc.depth] at hd
   omega
  have hi:=Undone.readItems_print he e items fuel (depth-1) rest
   (by simp only [Doc.print,length_cons,length_append] at hf;omega)
   (by simp only [Doc.depth] at hd;omega)
  have hn:next ']' (printItems escape (e::items) ++ ']' :: rest)=none:=by
   cases items with
   | nil=>exact next_print e _
   | cons e' items=>
    rw [printItems_cons,append_assoc]
    exact next_print e _
  rw [Doc.print,cons_append,append_assoc,readValue]
  simp [isSpace,ho,hn,hi,Doc.value]
 | .object []=>
  have ho:depth≠0:=by
   simp only [Doc.depth] at hd
   omega
  simp [Doc.print,printMembers,readValue,isSpace,ho,next,Doc.value,memberValues]
 | .object ((name,e)::members)=>
  have ho:depth≠0:=by
   simp only [Doc.depth] at hd
   omega
  have hm:=Undone.readMembers_print he name e members fuel (depth-1) rest
   (by simp only [Doc.print,length_cons,length_append] at hf;omega)
   (by simp only [Doc.depth] at hd;omega)
  have hn:next '\x7d' (printMembers escape ((name,e)::members) ++ '\x7d' :: rest)=none:=by
   cases members with
   | nil=>
    rw [printMembers,append_assoc]
    exact next_quote _ (by decide) name _
   | cons m members=>
    rw [printMembers_cons,append_assoc]
    exact next_quote _ (by decide) name _
  rw [Doc.print,cons_append,append_assoc,readValue]
  simp [isSpace,ho,hn,hm,Doc.value]
termination_by fuel

lemma Undone.readItems_print (he:Undone escape) (d:Doc) (items:List Doc) (fuel depth:ℕ)
 (rest:List Char) (hf:(printItems escape (d::items)).length<fuel) (hdp:itemsDepth (d::items)≤depth) :
 readItems dialect fuel depth (printItems escape (d::items) ++ ']' :: rest) =
  some (values (d::items),rest) := by
 obtain ⟨fuel,rfl⟩ : ∃n,fuel=n+1:=⟨fuel-1,by omega⟩
 rw [itemsDepth] at hdp
 match items with
 | []=>
  rw [printItems] at hf ⊢
  have hd:=Undone.readValue_print he d fuel depth (']' :: rest) (by omega) (by omega)
  rw [readItems,hd]
  simp [next,isSpace,values]
 | e::items=>
  rw [printItems_cons] at hf ⊢
  simp only [length_append,length_cons] at hf
  have hd:=Undone.readValue_print he d fuel depth
   (',' :: (printItems escape (e::items) ++ ']' :: rest)) (by omega) (by omega)
  have hi:=Undone.readItems_print he e items fuel depth rest (by omega) (by omega)
  rw [append_assoc,cons_append,readItems,hd]
  simp [next,isSpace,hi,values]
termination_by fuel

lemma Undone.readMembers_print (he:Undone escape) (name:List Char) (d:Doc)
 (members:List (List Char×Doc)) (fuel depth:ℕ) (rest:List Char)
 (hf:(printMembers escape ((name,d)::members)).length<fuel)
 (hdp:membersDepth ((name,d)::members)≤depth) :
 readMembers dialect fuel depth (printMembers escape ((name,d)::members) ++ '\x7d' :: rest) =
  some (memberValues ((name,d)::members),rest) := by
 obtain ⟨fuel,rfl⟩ : ∃n,fuel=n+1:=⟨fuel-1,by omega⟩
 rw [membersDepth] at hdp
 match members with
 | []=>
  rw [printMembers] at hf ⊢
  simp only [length_append,length_cons] at hf
  have hd:=Undone.readValue_print he d fuel depth ('\x7d' :: rest) (by omega) (by omega)
  rw [quote,append_assoc,cons_append,append_assoc,readMembers]
  simp [next,isSpace,he.readString_quote,hd,memberValues]
 | (name',e)::members=>
  rw [printMembers_cons] at hf ⊢
  simp only [length_append,length_cons] at hf
  have hd:=Undone.readValue_print he d fuel depth
   (',' :: (printMembers escape ((name',e)::members) ++ '\x7d' :: rest)) (by omega) (by omega)
  have hm:=Undone.readMembers_print he name' e members fuel depth rest (by omega)
   (by omega)
  rw [quote,append_assoc,cons_append,append_assoc,readMembers]
  simp [next,isSpace,he.readString_quote,hd,hm,memberValues]
termination_by fuel
end

lemma Undone.parse_print (he:Undone escape) (d:Doc) (hd:d.depth≤dialect.maxDepth) :
 parse dialect (d.print escape)=some d.value := by
 have hr:=he.readValue_print dialect d (fuelFor (d.print escape)) dialect.maxDepth []
  (by unfold fuelFor;omega) hd
 rw [append_nil] at hr
 unfold parse
 rw [hr]
 rfl
end InvariantProtocol.JsonText
