import InvariantProtocol.DataSchema
import InvariantProtocol.GoText
/-! The JSON text of an enum's values in Arrow field metadata, as Go's `json.Marshal` and
Python's `json.dumps` write it. -/
namespace InvariantProtocol.EnumMetadata
open List GoText DataSchema

def hexDigit (n:ℕ) : Char := "0123456789abcdef".toList.getD n '0'

def unicodeEscape (n:ℕ) : List Char :=
 ['\\','u',hexDigit (n / 4096 % 16),hexDigit (n / 256 % 16),hexDigit (n / 16 % 16),
  hexDigit (n % 16)]

/-- The escapes JSON requires, which are all that `json.dumps` makes with `ensure_ascii=False`. -/
def pythonEscape (c:Char) : List Char :=
 if c = '"' then ['\\','"']
 else if c = '\\' then ['\\','\\']
 else if c=Char.ofNat 8 then ['\\','b']
 else if c=Char.ofNat 12 then ['\\','f']
 else if c = '\n' then ['\\','n']
 else if c = '\r' then ['\\','r']
 else if c = '\t' then ['\\','t']
 else if c.toNat<0x20 then unicodeEscape c.toNat
 else [c]

/-- The characters `json.Marshal` also escapes, for HTML and for JavaScript. -/
def isMarkup (c:Char) : Bool :=
 c = '<' || c = '>' || c = '&' || c=Char.ofNat 0x2028 || c=Char.ofNat 0x2029

def goEscape (c:Char) : List Char :=
 if isMarkup c then unicodeEscape c.toNat else pythonEscape c

def quoted (escape:Char → List Char) (s:String) : List Char :=
 '"' :: s.toList.flatMap escape++['"']

def member (key:String) (value:List Char) : List Char :=
 '"' :: key.toList ++ '"' :: ':' :: value

def separated : List (List Char) → List Char
 | []=>[]
 | x::rest=>x++rest.flatMap (',' :: ·)

def object (members:List (List Char)) : List Char := '{' :: separated members++['}']

def array (items:List (List Char)) : List Char := '[' :: separated items++[']']

def descriptionMember (escape:Char → List Char) (value:EnumValue) : List (List Char) :=
 if value.description = "" then [] else [member "description" (quoted escape value.description)]

def goValue (value:EnumValue) : List Char :=
 object (member "name" (quoted goEscape value.name) ::
  member "number" (formatInt value.number).toList::descriptionMember goEscape value)

/-- A key whose value is the empty string is left out, the name's too. -/
def pythonValue (value:EnumValue) : List Char :=
 object ((if value.name = "" then [] else [member "name" (quoted pythonEscape value.name)]) ++
  member "number" (formatInt value.number).toList::descriptionMember pythonEscape value)

def goEnumValues (values:List EnumValue) : String:=String.ofList (array (values.map goValue))

def pythonEnumValues (values:List EnumValue) : String :=
 String.ofList (array (values.map pythonValue))

example : goEnumValues [⟨"A",0,"x < y"⟩] =
  "[\x7b\"name\":\"A\",\"number\":0,\"description\":\"x \\u003c y\"\x7d]" := by decide

/-! ### When the two texts agree -/

def Plain (value:EnumValue) : Prop :=
 value.name≠"" ∧ (∀c∈value.name.toList,isMarkup c=false) ∧
  ∀c∈value.description.toList,isMarkup c=false

def textExcess (s:String) : ℕ:=5*s.toList.countP isMarkup

def excess (value:EnumValue) : ℕ :=
 textExcess value.name+textExcess value.description+if value.name = "" then 10 else 0

lemma textExcess_eq_zero (s:String) : textExcess s=0 ↔ ∀c∈s.toList,isMarkup c=false := by
 rw [textExcess,Nat.mul_eq_zero,countP_eq_zero]
 simp

lemma excess_eq_zero (value:EnumValue) : excess value=0 ↔ Plain value := by
 rw [Plain,←textExcess_eq_zero,←textExcess_eq_zero,excess]
 split <;> rename_i h <;> simp [h]

instance : DecidablePred Plain:=fun value=>
 decidable_of_iff (excess value=0) (excess_eq_zero value)

lemma pythonEscape_markup {c:Char} (h:isMarkup c=true) : pythonEscape c=[c] := by
 simp only [isMarkup,Bool.or_eq_true,decide_eq_true_eq] at h
 obtain ((((rfl|rfl)|rfl)|rfl)|rfl):=h <;> decide

lemma goEscape_length (c:Char) : (goEscape c).length=(pythonEscape c).length+5*[c].countP isMarkup := by
 cases h : isMarkup c with
 | true=>simp [goEscape,h,pythonEscape_markup h,unicodeEscape]
 | false=>simp [goEscape,h]

lemma quoted_length (s:String) :
 (quoted goEscape s).length=(quoted pythonEscape s).length+textExcess s := by
 have h:∀cs : List Char,(cs.flatMap goEscape).length =
   (cs.flatMap pythonEscape).length+5*cs.countP isMarkup:=by
  intro cs
  induction cs with
  | nil=>rfl
  | cons c cs ih=>
   have hc:=goEscape_length c
   have hcn:(c::cs).countP isMarkup=[c].countP isMarkup+cs.countP isMarkup:=by
    rw [←countP_append,singleton_append]
   simp only [flatMap_cons,length_append,hcn]
   omega
 simp only [quoted,textExcess,length_append,length_cons,h]
 omega

lemma quoted_eq {s:String} (h:∀c∈s.toList,isMarkup c=false) : quoted goEscape s=quoted pythonEscape s := by
 have hes:∀c∈s.toList,goEscape c=pythonEscape c:=by
  intro c hc
  simp [goEscape,h c hc]
 rw [quoted,quoted,flatMap_congr hes]

lemma descriptionMember_length (value:EnumValue) :
 ((descriptionMember goEscape value).flatMap (',' :: ·)).length =
  ((descriptionMember pythonEscape value).flatMap (',' :: ·)).length + textExcess value.description := by
 have hd:=quoted_length value.description
 unfold descriptionMember
 split
 · next hem=>rw [hem];rfl
 · simp only [member,flatMap_cons,flatMap_nil,length_append,length_cons]
   omega

lemma goValue_length (value:EnumValue) :
 (goValue value).length=(pythonValue value).length+excess value := by
 have hn:=quoted_length value.name
 have hd:=descriptionMember_length value
 unfold goValue pythonValue excess object
 by_cases hem : value.name = ""
 · have hq:quoted goEscape "" = ['"','"']:=rfl
   have hnn:textExcess "" = 0:=rfl
   rw [hem,hq,hnn,if_pos rfl,if_pos rfl]
   simp only [separated,member,flatMap_cons,length_append,length_cons,nil_append,
    hd]
   have hk : "name".toList.length=4:=rfl
   simp only [length_nil,hk]
   omega
 · rw [if_neg hem,if_neg hem]
   simp only [separated,member,flatMap_cons,length_append,length_cons,cons_append,
    nil_append,hd,hn]
   omega

lemma goValue_eq {value:EnumValue} (h:Plain value) : goValue value=pythonValue value := by
 obtain ⟨hn,hm,hd⟩:=h
 rw [goValue,pythonValue,descriptionMember,descriptionMember,quoted_eq hm,quoted_eq hd,
  if_neg hn]
 rfl

/-- Texts agree exactly when no value has an empty name and none has markup characters in its
  name or its description. -/
theorem enumValues_eq_iff (values:List EnumValue) :
 goEnumValues values=pythonEnumValues values ↔ ∀value∈values,Plain value := by
 have hl:∀vs : List EnumValue,
   ((vs.map goValue).flatMap (',' :: ·)).length =
    ((vs.map pythonValue).flatMap (',' :: ·)).length+(vs.map excess).sum:=by
  intro vs
  induction vs with
  | nil=>rfl
  | cons v vs ih=>
   have hv:=goValue_length v
   simp only [map_cons,flatMap_cons,length_append,length_cons,sum_cons,ih]
   omega
 constructor
 · intro h
   have hc:array (values.map goValue)=array (values.map pythonValue):=by
    simpa [goEnumValues,pythonEnumValues] using congrArg String.toList h
   cases values with
   | nil=>simp
   | cons v vs=>
    have ht:=congrArg List.length hc
    have hv:=goValue_length v
    have hr:=hl vs
    simp only [array,separated,map_cons,length_append,length_cons] at ht
    have hz:excess v=0 ∧ (vs.map excess).sum=0:=by omega
    rw [List.sum_eq_zero_iff_forall_eq_nat] at hz
    simp only [forall_mem_cons,←excess_eq_zero]
    exact ⟨hz.1,fun w hw=>hz.2 _ (mem_map_of_mem hw)⟩
 · intro h
   have hvl:values.map goValue=values.map pythonValue:=
    map_congr_left fun v hv=>goValue_eq (h v hv)
   rw [goEnumValues,pythonEnumValues,hvl]
end InvariantProtocol.EnumMetadata
