import Mathlib.Data.Nat.Notation
import Mathlib.Data.List.Basic
/-! A lexer for SQL text as a machine that reads one character at a time. -/
namespace InvariantProtocol.SqlText
open List hiding after lex

inductive Token where
 | word (s:String)
 | quoted (s:String)
 | text (s:String)
 | number (n:ℕ)
 | symbol (c:Char)
 | arrow
 | hole (s:String)
 deriving DecidableEq

/-- What the lexer is inside of, with the characters read so far. -/
inductive Mode where
 | start
 | word (cs:List Char)
 | number (cs:List Char)
 | delimited (delimiter:Char) (cs:List Char)
 | escaped (delimiter:Char) (cs:List Char)
 | minus
 | hole (cs:List Char)
 deriving DecidableEq

def backquote : Char:=Char.ofNat 0x60

def apostrophe : Char:=Char.ofNat 0x27

def leftBrace : Char:=Char.ofNat 0x7B

def rightBrace : Char:=Char.ofNat 0x7D

def isWordStart (c:Char) : Bool:=c.isAlpha || c = '_'

def isWordChar (c:Char) : Bool:=isWordStart c || c.isDigit

def symbols : List Char:=['(',')','[',']',',','=']

def unescape (c:Char) : Option Char :=
 if c = '\\' ∨ c=apostrophe ∨ c=backquote then some c
 else if c = 'n' then some '\n'
 else if c = 'r' then some '\r'
 else if c = 't' then some '\t'
 else none

def delimitedToken (delimiter:Char) (cs:List Char) : Token :=
 if delimiter=backquote then .quoted (String.ofList cs) else .text (String.ofList cs)

def begin (c:Char) : Option (List Token×Mode) :=
 if c = ' ' then some ([],.start)
 else if isWordStart c then some ([],.word [c])
 else if c.isDigit then some ([],.number [c])
 else if c=backquote ∨ c=apostrophe then some ([],.delimited c [])
 else if c = '-' then some ([],.minus)
 else if c=leftBrace then some ([],.hole [])
 else if c∈symbols then some ([.symbol c],.start)
 else none

/-- The tokens still to come where a text may end. -/
def Mode.pending : Mode → Option (List Token)
 | .start=>some []
 | .word cs=>some [.word (String.ofList cs)]
 | .number cs=>some [.number (Nat.ofDigitChars 10 cs 0)]
 | _=>none

def after (ts:List Token) (c:Char) : Option (List Token×Mode) :=
 (begin c).map fun next=>(ts++next.1,next.2)

def step : Mode → Char → Option (List Token×Mode)
 | .start,c=>begin c
 | .word cs,c=>
  if isWordChar c then some ([],.word (cs++[c])) else after [.word (String.ofList cs)] c
 | .number cs,c=>
  if c.isDigit then some ([],.number (cs++[c]))
  else if isWordChar c then none
  else after [.number (Nat.ofDigitChars 10 cs 0)] c
 | .delimited delimiter cs,c=>
  if c=delimiter then some ([delimitedToken delimiter cs],.start)
  else if c = '\\' then some ([],.escaped delimiter cs)
  else some ([],.delimited delimiter (cs++[c]))
 | .escaped delimiter cs,c=>(unescape c).map fun c=>([],.delimited delimiter (cs++[c]))
 | .minus,c=>if c = '>' then some ([.arrow],.start) else after [.symbol '-'] c
 | .hole cs,c=>
  if c=rightBrace then some ([.hole (String.ofList cs)],.start)
  else if isWordChar c then some ([],.hole (cs++[c]))
  else none

def run : Mode → List Char → Option (List Token×Mode)
 | m,[]=>some ([],m)
 | m,c::cs=>do
  let (ts,m) ← step m c
  let (us,m) ← run m cs
  some (ts++us,m)

def lex (s:String) : Option (List Token):=do
 let (ts,m) ← run .start s.toList
 let us ← m.pending
 some (ts++us)

variable {m:Mode} {ts us:List Token} {s t:String} {c:Char}
lemma run_append {m' m'':Mode} {xs ys:List Char} (hx:run m xs=some (ts,m'))
 (hy:run m' ys=some (us,m'')) : run m (xs++ys)=some (ts++us,m'') := by
 induction xs generalizing m ts with
 | nil=>
  simp only [run,Option.some.injEq,Prod.mk.injEq] at hx
  obtain ⟨rfl,rfl⟩:=hx
  simpa using hy
 | cons c xs ih=>
  simp only [run,Option.bind_eq_bind,Option.bind_eq_some_iff,Prod.exists,Option.some.injEq,Prod.mk.injEq] at hx
  obtain ⟨ts₁,m₁,hs,ts₂,m₂,hr,rfl,rfl⟩:=hx
  simp [run,hs,ih hr]

def Closed (s:String) (ts:List Token) : Prop:=run .start s.toList=some (ts,.start)

def Lexes (s:String) (ts:List Token) : Prop :=
 ∃us m vs,run .start s.toList=some (us,m) ∧ m.pending=some vs ∧ ts=us++vs

/-- A text in front of which a word or a number ends. -/
def Separates (s:String) : Bool :=
 match s.toList with
 | []=>false
 | c::_=>!isWordChar c

lemma Closed.lexes (h:Closed s ts) : Lexes s ts :=
 ⟨ts,.start,[],h,rfl,by simp⟩

lemma Lexes.lex (h:Lexes s ts) : lex s=some ts := by
 obtain ⟨us,m,vs,hr,hp,rfl⟩:=h
 simp [SqlText.lex,hr,hp]

lemma Closed.append (hs:Closed s ts) (ht:Closed t us) : Closed (s++t) (ts++us) := by
 unfold Closed at *
 rw [String.toList_append]
 exact run_append hs ht

lemma Closed.append_lexes (hs:Closed s ts) (ht:Lexes t us) : Lexes (s++t) (ts++us) := by
 obtain ⟨vs,m,ws,hr,hp,rfl⟩:=ht
 refine ⟨ts++vs,m,ws,?_,hp,by simp⟩
 rw [String.toList_append]
 exact run_append hs hr

variable {vs:List Token} {delimiter:Char}
lemma step_pending (hm:m.pending=some vs) (hc:isWordChar c=false) : step m c=after vs c := by
 have hd:c.isDigit=false:=(Bool.or_eq_false_iff.1 hc).2
 cases m with
 | start=>
  obtain rfl : vs=[]:=by simpa [Mode.pending] using hm.symm
  simp [step,after]
 | word cs=>
  obtain rfl : vs=[.word (String.ofList cs)]:=by simpa [Mode.pending] using hm.symm
  simp [step,hc]
 | number cs=>
  obtain rfl : vs=[.number (Nat.ofDigitChars 10 cs 0)]:=by
   simpa [Mode.pending] using hm.symm
  simp [step,hc,hd]
 | _=>simp [Mode.pending] at hm

lemma Lexes.append_closed (hs:Lexes s ts) (hsp:Separates t=true) (ht:Closed t us) :
 Closed (s++t) (ts++us) := by
 obtain ⟨vs,m,ws,hrn,hp,rfl⟩:=hs
 unfold Closed Separates at *
 rw [String.toList_append,append_assoc]
 refine run_append hrn ?_
 cases hch : t.toList with
 | nil=>simp [hch] at hsp
 | cons c cs=>
  rw [hch] at hsp ht
  have hc:isWordChar c=false:=by simpa using hsp
  simp only [run,step,Option.bind_eq_bind,Option.bind_eq_some_iff,Prod.exists,Option.some.injEq,
   Prod.mk.injEq] at ht
  obtain ⟨us₁,m₁,hb,us₂,m₂,hr,rfl,rfl⟩:=ht
  simp [run,step_pending hp hc,after,hb,hr]

lemma Lexes.append_lexes {u:String} (hs:Lexes s ts) (hsp:Separates t=true) (ht:Closed t us)
 (hu:Lexes u vs) : Lexes (s++t++u) (ts++us++vs) :=
 (hs.append_closed hsp ht).append_lexes hu

lemma closed_comma : Closed ", " [.symbol ','] := rfl

lemma closed_space : Closed " " [] := rfl

lemma closed_rparen : Closed ")" [.symbol ')'] := rfl

lemma run_word (cs ds:List Char) (h:∀c∈ds,isWordChar c=true) :
 run (.word cs) ds=some ([],.word (cs++ds)) := by
 induction ds generalizing cs with
 | nil=>simp [run]
 | cons d ds ih=>
  have hd:isWordChar d=true:=h d mem_cons_self
  simp [run,step,hd,ih (cs++[d]) fun c hc=>h c (mem_cons_of_mem _ hc)]

/-- A word: a letter or underscore, then letters, digits and underscores. -/
def isWord (s:String) : Bool :=
 match s.toList with
 | []=>false
 | c::cs=>isWordStart c && cs.all isWordChar

lemma lexes_word (h:isWord s=true) : Lexes s [.word s] := by
 unfold isWord at h
 refine ⟨[],.word s.toList,[.word s],?_,by simp [Mode.pending],rfl⟩
 cases hc : s.toList with
 | nil=>simp [hc] at h
 | cons c cs=>
  simp only [hc,Bool.and_eq_true,all_eq_true] at h
  have hs:c ≠ ' ':=by
   rintro rfl
   simp [isWordStart] at h
  simp [run,step,begin,hs,h.1,run_word [c] cs h.2]

def call (f arguments:String) : String:=f++"("++arguments++")"

lemma closed_call {f arguments:String} (hf:isWord f=true) (h:Lexes arguments ts) :
 Closed (call f arguments) ([.word f,.symbol '(']++ts++[.symbol ')']) :=
 (((lexes_word hf).append_closed (by decide) (show Closed "(" [.symbol '('] from rfl)).append_lexes
  h).append_closed (by decide) closed_rparen

lemma run_hole (cs ds:List Char) (h:∀c∈ds,isWordChar c=true) :
 run (.hole cs) ds=some ([],.hole (cs++ds)) := by
 induction ds generalizing cs with
 | nil=>simp [run]
 | cons d ds ih=>
  have hd:isWordChar d=true:=h d mem_cons_self
  have hb:d≠rightBrace:=by
   rintro rfl
   revert hd
   decide
  simp [run,step,hd,hb,ih (cs++[d]) fun c hc=>h c (mem_cons_of_mem _ hc)]

lemma closed_hole (h:isWord s=true) : Closed ("\x7b"++s++"\x7d") [.hole s] := by
 have hc:∀c∈s.toList,isWordChar c=true:=by
  unfold isWord at h
  cases hl : s.toList with
  | nil=>simp
  | cons c cs=>
   simp only [hl,Bool.and_eq_true,all_eq_true] at h
   exact List.forall_mem_cons.2 ⟨by simp [isWordChar,h.1],h.2⟩
 have hen:run (.hole s.toList) [rightBrace]=some ([.hole s],.start):=by
  simp [run,step]
 have hb:=run_append (run_hole [] s.toList hc) hen
 unfold Closed
 rw [String.toList_append,String.toList_append,append_assoc]
 exact run_append (show run .start ['\x7b']=some ([],.hole []) from rfl) hb

lemma run_number (cs ds:List Char) (h:∀c∈ds,c.isDigit=true) :
 run (.number cs) ds=some ([],.number (cs++ds)) := by
 induction ds generalizing cs with
 | nil=>simp [run]
 | cons d ds ih=>
  have hd:d.isDigit=true:=h d mem_cons_self
  simp [run,step,hd,ih (cs++[d]) fun c hc=>h c (mem_cons_of_mem _ hc)]

lemma begin_digit (h:c.isDigit=true) : begin c=some ([],.number [c]) := by
 have hs:c ≠ ' ':=by
  rintro rfl
  simp at h
 have hw:isWordStart c=false:=by
  have hu:c ≠ '_':=by
   rintro rfl
   simp at h
  have hal:c.isAlpha=(decide (c.val ≥ 'A'.val ∧ c.val ≤ 'Z'.val) ||
    decide (c.val ≥ 'a'.val) && decide (c.val ≤ 'z'.val)):=rfl
  have hA : 'A'.val.toNat=65:=rfl
  have ha : 'a'.val.toNat=97:=rfl
  have h9 : '9'.val.toNat=57:=rfl
  simp only [isWordStart,hal,Char.isDigit,Bool.or_eq_false_iff,decide_eq_false_iff_not,
   decide_eq_true_eq,ge_iff_le,UInt32.le_iff_toNat_le,←Bool.decide_and] at h ⊢
  exact ⟨by omega,hu⟩
 simp [begin,hs,hw,h]

lemma lexes_number (n:ℕ) : Lexes (toString n) [.number n] := by
 have hdg:∀c∈Nat.toDigits 10 n,c.isDigit=true:=fun c hc=>
  Nat.isDigit_of_mem_toDigits (by decide) (by decide) hc
 refine ⟨[],.number (Nat.toDigits 10 n),[.number n],?_,?_,rfl⟩
 · have hch:(toString n).toList=Nat.toDigits 10 n:=Nat.toList_repr
   rw [hch]
   cases hl : Nat.toDigits 10 n with
   | nil=>exact absurd hl Nat.toDigits_ne_nil
   | cons c cs=>
    rw [hl] at hdg
    have hr:=run_number [c] cs fun d hd=>hdg d (mem_cons_of_mem _ hd)
    simp [run,step,begin_digit (hdg c mem_cons_self),hr]
 · simp [Mode.pending,Nat.ofDigitChars_ten_toDigits]

lemma run_minus {cs:List Char} (hc:c ≠ '>') (h:run .start (c::cs)=some (ts,m)) :
 run .minus (c::cs)=some (.symbol '-' :: ts,m) := by
 simp only [run,step,Option.bind_eq_bind,Option.bind_eq_some_iff,Prod.exists,Option.some.injEq,
  Prod.mk.injEq] at h
 obtain ⟨us,m₁,hb,vs,m₂,hr,rfl,rfl⟩:=h
 simp [run,step,hc,after,hb,hr]

lemma lexes_minus (n:ℕ) : Lexes ("-"++toString n) [.symbol '-',.number n] := by
 obtain ⟨us,m,vs,hr,hp,heq⟩:=lexes_number n
 have hch:(toString n).toList=Nat.toDigits 10 n:=Nat.toList_repr
 rw [hch] at hr
 refine ⟨.symbol '-' :: us,m,vs,?_,hp,by rw [cons_append,←heq]⟩
 rw [String.toList_append,hch]
 cases hl : Nat.toDigits 10 n with
 | nil=>exact absurd hl Nat.toDigits_ne_nil
 | cons c cs=>
  have hd:c.isDigit=true:=
   Nat.isDigit_of_mem_toDigits (by decide) (by decide) (hl ▸ mem_cons_self)
  have hc:c ≠ '>':=by
   rintro rfl
   simp at hd
  rw [hl] at hr
  exact run_append (show run .start ['-']=some ([],.minus) from rfl) (run_minus hc hr)

/-- An escaping of single characters that the lexer undoes inside a pair of delimiters. -/
def Escapes (delimiter:Char) (escape:Char → List Char) : Prop :=
 ∀c,(escape c=[c] ∧ c≠delimiter ∧ c ≠ '\\') ∨
  ∃d,escape c=['\\',d] ∧ unescape d=some c

lemma run_delimited {escape:Char → List Char} (hes:Escapes delimiter escape)
 (hs:delimiter ≠ '\\') (cs ds:List Char) :
 run (.delimited delimiter cs) (ds.flatMap escape)=some ([],.delimited delimiter (cs++ds)) := by
 induction ds generalizing cs with
 | nil=>simp [run]
 | cons d ds ih=>
  rw [flatMap_cons]
  have hf:run (.delimited delimiter cs) (escape d) =
    some ([],.delimited delimiter (cs++[d])):=by
   obtain ⟨heq,hne,hn'⟩|⟨e,heq,he⟩:=hes d
   · simp [heq,run,step,hne,hn']
   · simp [heq,run,step,hs.symm,he]
  simpa using run_append hf (ih (cs++[d]))

def delimit (delimiter:Char) (escape:Char → List Char) (s:String) : String :=
 String.ofList (delimiter::(s.toList.flatMap escape++[delimiter]))

lemma closed_delimit {escape:Char → List Char}
 (hd:delimiter=backquote ∨ delimiter=apostrophe) (hes:Escapes delimiter escape)
 (s:String) : Closed (delimit delimiter escape s) [delimitedToken delimiter s.toList] := by
 have hb:begin delimiter=some ([],.delimited delimiter []):=by
  obtain rfl|rfl:=hd <;> decide
 have hs:delimiter ≠ '\\':=by
  obtain rfl|rfl:=hd <;> decide
 have hen:run (.delimited delimiter s.toList) [delimiter] =
   some ([delimitedToken delimiter s.toList],.start):=by
  simp [run,step]
 have hbd:=run_append (run_delimited hes hs [] s.toList) hen
 unfold Closed delimit
 rw [String.toList_ofList,run]
 simp [step,hb,hbd]

def nameEscape (c:Char) : List Char :=
 if c = '\\' ∨ c=backquote then ['\\',c] else [c]

def textEscape (c:Char) : List Char :=
 if c = '\\' ∨ c=apostrophe then ['\\',c]
 else if c = '\n' then ['\\','n']
 else if c = '\r' then ['\\','r']
 else if c = '\t' then ['\\','t']
 else [c]

def quoteName (s:String) : String:=delimit backquote nameEscape s

def quoteText (s:String) : String:=delimit apostrophe textEscape s

lemma closed_quoteName (s:String) : Closed (quoteName s) [.quoted s] := by
 have hes:Escapes backquote nameEscape:=by
  intro c
  by_cases h : c = '\\' ∨ c=backquote
  · exact Or.inr ⟨c,by simp [nameEscape,h],by rcases h with h|h <;> simp [unescape,h]⟩
  · exact Or.inl ⟨by simp [nameEscape,h],fun hc=>h (Or.inr hc),fun hc=>h (Or.inl hc)⟩
 simpa [delimitedToken,quoteName] using closed_delimit (Or.inl rfl) hes s

lemma closed_quoteText (s:String) : Closed (quoteText s) [.text s] := by
 have hes:Escapes apostrophe textEscape:=by
  intro c
  by_cases h : c = '\\' ∨ c=apostrophe
  · exact Or.inr ⟨c,by simp [textEscape,h],by rcases h with h|h <;> simp [unescape,h]⟩
  by_cases hn : c = '\n'
  · exact Or.inr ⟨'n',by simp [textEscape,hn];decide,by rw [hn];decide⟩
  by_cases hr : c = '\r'
  · exact Or.inr ⟨'r',by simp [textEscape,hr];decide,by rw [hr];decide⟩
  by_cases ht : c = '\t'
  · exact Or.inr ⟨'t',by simp [textEscape,ht];decide,by rw [ht];decide⟩
  · exact Or.inl ⟨by simp [textEscape,h,hn,hr,ht],fun hc=>h (Or.inr hc),
     fun hc=>h (Or.inl hc)⟩
 have hne:apostrophe≠backquote:=by decide
 simpa [delimitedToken,quoteText,hne] using closed_delimit (Or.inr rfl) hes s
end InvariantProtocol.SqlText
