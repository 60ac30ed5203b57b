import Mathlib.Data.List.Basic
/-! Protobuf messages as reflection shows them: the populated fields in field-number order and the
unknown bytes each message keeps. -/
namespace InvariantProtocol.WireMessage
open List

mutual

inductive Message (S:Type) where
 | mk (fields:List (Populated S)) (unknown:List UInt8)

inductive Populated (S:Type) where
 | scalar (number:ℕ) (name:String) (value:S)
 | message (number:ℕ) (name:String) (value:Message S)
 | messages (number:ℕ) (name:String) (values:List (Message S))
end

variable {S:Type}
def Message.fields : Message S → List (Populated S)
 | .mk fields _=>fields

def Message.unknown : Message S → List UInt8
 | .mk _ unknown=>unknown

def Populated.values : Populated S → List (Message S)
 | .scalar _ _ _=>[]
 | .message _ _ value=>[value]
 | .messages _ _ values=>values

/-- `m.Contains sub`: `sub` is `m` or a message below it. -/
inductive Message.Contains : Message S → Message S → Prop where
 | self (m:Message S) : m.Contains m
 | nested {m value sub:Message S} {field:Populated S} :
   field∈m.fields → value∈field.values → value.Contains sub → m.Contains sub

def Message.HasUnknown (m:Message S) : Prop := ∃sub,m.Contains sub ∧ sub.unknown≠[]

lemma hasUnknown_mk (fields:List (Populated S)) (unknown:List UInt8) :
 (Message.mk fields unknown).HasUnknown ↔
  unknown≠[] ∨ ∃field∈fields,∃value∈field.values,value.HasUnknown := by
 constructor
 · rintro ⟨sub,hsub,hu⟩
   cases hsub with
   | self=>exact .inl hu
   | nested hf hvalue hsub=>exact .inr ⟨_,hf,_,hvalue,sub,hsub,hu⟩
 · rintro (h|⟨field,hf,value,hvalue,sub,hsub,hu⟩)
   · exact ⟨_,.self _,h⟩
   · exact ⟨sub,.nested hf hvalue hsub,hu⟩

mutual

def Message.discardUnknown : Message S → Message S
 | .mk fields _=>.mk (discardFields fields) []

def discardFields : List (Populated S) → List (Populated S)
 | []=>[]
 | field::rest=>discardField field::discardFields rest

def discardField : Populated S → Populated S
 | .scalar number name value=>.scalar number name value
 | .message number name value=>.message number name value.discardUnknown
 | .messages number name values=>.messages number name (discardMessages values)

def discardMessages : List (Message S) → List (Message S)
 | []=>[]
 | value::rest=>value.discardUnknown::discardMessages rest
end

mutual

def Message.unknownCount : Message S → ℕ
 | .mk fields unknown=>countFields fields+unknown.length

def countFields : List (Populated S) → ℕ
 | []=>0
 | field::rest=>countField field+countFields rest

def countField : Populated S → ℕ
 | .scalar _ _ _=>0
 | .message _ _ value=>value.unknownCount
 | .messages _ _ values=>countMessages values

def countMessages : List (Message S) → ℕ
 | []=>0
 | value::rest=>value.unknownCount+countMessages rest
end

mutual

lemma unknownCount_eq_zero : (m:Message S) → (m.unknownCount=0 ↔ ¬m.HasUnknown)
 | .mk fields unknown=>by
  have hf:=countFields_eq_zero fields
  rw [Message.unknownCount,hasUnknown_mk,Nat.add_eq_zero_iff,hf,length_eq_zero_iff]
  grind

lemma countFields_eq_zero : (fields:List (Populated S)) →
 (countFields fields=0 ↔ ∀field∈fields,∀value∈field.values,¬value.HasUnknown)
 | []=>by simp [countFields]
 | field::rest=>by
  rw [countFields,Nat.add_eq_zero_iff,countField_eq_zero field,countFields_eq_zero rest,forall_mem_cons]

lemma countField_eq_zero : (field:Populated S) →
 (countField field=0 ↔ ∀value∈field.values,¬value.HasUnknown)
 | .scalar _ _ _=>by simp [countField,Populated.values]
 | .message _ _ value=>by simp [countField,Populated.values,unknownCount_eq_zero value]
 | .messages _ _ values=>countMessages_eq_zero values

lemma countMessages_eq_zero : (values:List (Message S)) →
 (countMessages values=0 ↔ ∀value∈values,¬value.HasUnknown)
 | []=>by simp [countMessages]
 | value::rest=>by
  rw [countMessages,Nat.add_eq_zero_iff,unknownCount_eq_zero value,countMessages_eq_zero rest,
   forall_mem_cons]
end

mutual

lemma discardUnknown_eq_self : (m:Message S) → m.unknownCount=0 → m.discardUnknown=m
 | .mk fields unknown,h=>by
  obtain ⟨hf,hu⟩:=Nat.add_eq_zero_iff.1 h
  rw [Message.discardUnknown,discardFields_eq_self fields hf,List.length_eq_zero_iff.1 hu]

lemma discardFields_eq_self : (fields:List (Populated S)) → countFields fields=0 →
 discardFields fields=fields
 | [],_=>rfl
 | field::rest,h=>by
  obtain ⟨hf,hr⟩:=Nat.add_eq_zero_iff.1 h
  rw [discardFields,discardField_eq_self field hf,discardFields_eq_self rest hr]

lemma discardField_eq_self : (field:Populated S) → countField field=0 →
 discardField field=field
 | .scalar _ _ _,_=>rfl
 | .message number name value,h=>by rw [discardField,discardUnknown_eq_self value h]
 | .messages number name values,h=>by rw [discardField,discardMessages_eq_self values h]

lemma discardMessages_eq_self : (values:List (Message S)) → countMessages values=0 →
 discardMessages values=values
 | [],_=>rfl
 | value::rest,h=>by
  obtain ⟨hvalue,hr⟩:=Nat.add_eq_zero_iff.1 h
  rw [discardMessages,discardUnknown_eq_self value hvalue,discardMessages_eq_self rest hr]
end

/-! ### The wire format -/

def varint (n:ℕ) : List UInt8 :=
 if n<128 then [n.toUInt8] else (n % 128+128).toUInt8::varint (n / 128)

lemma varint_length_mono {m n:ℕ} (h:m≤n) : (varint m).length≤(varint n).length := by
 induction n using Nat.strongRecOn generalizing m with
 | ind n ih=>
  rw [varint.eq_def m,varint.eq_def n]
  by_cases hm : m<128
  · rw [if_pos hm]
    split <;> simp
  · have hn:¬n<128:=by omega
    rw [if_neg hm,if_neg hn,length_cons,length_cons]
    have hd:=ih (n / 128) (by omega) (Nat.div_le_div_right h)
    omega

/-- A length-delimited record. -/
def embed (number:ℕ) (payload:List UInt8) : List UInt8 :=
 varint (8*number+2)++varint payload.length++payload

lemma embed_length (number:ℕ) {k:ℕ} {short long:List UInt8} (h:short.length+k≤long.length) :
 (embed number short).length+k≤(embed number long).length := by
 have hl:=varint_length_mono (Nat.le_of_add_right_le h)
 simp only [embed,length_append]
 omega

variable (scalarBytes:ℕ → S → List UInt8)

mutual

/-- Known fields first, then the unknown bytes as they were read. -/
def encode : Message S → List UInt8
 | .mk fields unknown=>encodeFields fields++unknown

def encodeFields : List (Populated S) → List UInt8
 | []=>[]
 | field::rest=>encodeField field++encodeFields rest

def encodeField : Populated S → List UInt8
 | .scalar number _ value=>scalarBytes number value
 | .message number _ value=>embed number (encode value)
 | .messages number _ values=>encodeMessages number values

def encodeMessages (number:ℕ) : List (Message S) → List UInt8
 | []=>[]
 | value::rest=>embed number (encode value)++encodeMessages number rest
end

mutual

lemma encode_discardUnknown_length : (m:Message S) →
 (encode scalarBytes m.discardUnknown).length+m.unknownCount≤(encode scalarBytes m).length
 | .mk fields unknown=>by
  have h:=encodeFields_discard_length fields
  simp only [Message.discardUnknown,Message.unknownCount,encode,length_append,length_nil]
  omega

lemma encodeFields_discard_length : (fields:List (Populated S)) →
 (encodeFields scalarBytes (discardFields fields)).length+countFields fields ≤
  (encodeFields scalarBytes fields).length
 | []=>by simp [discardFields,countFields]
 | field::rest=>by
  have hf:=encodeField_discard_length field
  have hr:=encodeFields_discard_length rest
  simp only [discardFields,countFields,encodeFields,length_append]
  omega

lemma encodeField_discard_length : (field:Populated S) →
 (encodeField scalarBytes (discardField field)).length+countField field ≤
  (encodeField scalarBytes field).length
 | .scalar number name value=>by simp [discardField,countField]
 | .message number name value=>embed_length number (encode_discardUnknown_length value)
 | .messages number name values=>encodeMessages_discard_length number values

lemma encodeMessages_discard_length (number:ℕ) : (values:List (Message S)) →
 (encodeMessages scalarBytes number (discardMessages values)).length+countMessages values ≤
  (encodeMessages scalarBytes number values).length
 | []=>by simp [discardMessages,countMessages]
 | value::rest=>by
  have hvalue:=embed_length number (encode_discardUnknown_length value)
  have hr:=encodeMessages_discard_length number rest
  simp only [discardMessages,countMessages,encodeMessages,length_append]
  omega
end

/-- Dropping unknown fields keeps the bytes exactly when there are none, at any depth. -/
theorem encode_discardUnknown_eq_iff (m:Message S) :
 encode scalarBytes m.discardUnknown=encode scalarBytes m ↔ ¬m.HasUnknown := by
 rw [←unknownCount_eq_zero]
 constructor
 · intro h
   have hl:=encode_discardUnknown_length scalarBytes m
   rw [h] at hl
   omega
 · intro h
   rw [discardUnknown_eq_self m h]
end InvariantProtocol.WireMessage
