import Mathlib.Data.List.Basic
import Mathlib.Data.List.Infix
import Mathlib.Data.Nat.Init
/-! Patterns in which one symbol, the star, stands for any word, and a matcher that backtracks to the
last star only. -/
namespace InvariantProtocol.StarPattern
open List hiding Cursor

variable {α:Type}
inductive Matches (star:α) : List α → List α → Prop where
 | nil : Matches star [] []
 | symbol {c:α} {p s:List α} (hc:c≠star) (h:Matches star p s) :
   Matches star (c::p) (c::s)
 | star {p s:List α} (w:List α) (h:Matches star p s) : Matches star (star::p) (w++s)

section
variable {star:α} {p s:List α}
lemma matches_nil : Matches star [] s ↔ s=[] := by
 constructor
 · intro h
   cases h
   rfl
 · rintro rfl
   exact .nil

lemma matches_star : Matches star (star::p) s ↔ ∃t,t <:+ s ∧ Matches star p t := by
 constructor
 · intro h
   cases h with
   | symbol hc _=>exact absurd rfl hc
   | star w h=>exact ⟨_,⟨w,rfl⟩,h⟩
 · rintro ⟨t,⟨w,rfl⟩,h⟩
   exact .star w h

lemma matches_symbol {c:α} (hc:c≠star) : Matches star (c::p) s ↔ ∃t,s=c::t ∧ Matches star p t := by
 constructor
 · intro h
   cases h with
   | symbol _ h=>exact ⟨_,rfl,h⟩
   | star w _=>exact absurd rfl hc
 · rintro ⟨t,rfl,h⟩
   exact .symbol hc h

/-- A star takes nothing, or one symbol and then what a star takes. -/
theorem matches_star_cons : Matches star (star::p) s ↔
  Matches star p s ∨ ∃c t,s=c::t ∧ Matches star (star::p) t := by
 constructor
 · intro h
   obtain ⟨t,hs,ht⟩:=matches_star.1 h
   cases s with
   | nil=>
    rw [suffix_nil] at hs
    exact .inl (hs ▸ ht)
   | cons c s=>
    obtain rfl|hs:=List.suffix_cons_iff.1 hs
    · exact .inl ht
    · exact .inr ⟨c,s,rfl,matches_star.2 ⟨t,hs,ht⟩⟩
 · rintro (h|⟨c,t,rfl,h⟩)
   · exact matches_star.2 ⟨s,suffix_refl s,h⟩
   · obtain ⟨u,hu,h⟩:=matches_star.1 h
     exact matches_star.2 ⟨u,hu.trans (suffix_cons c t),h⟩

lemma matches_star_mono {t:List α} (hs:t <:+ s) (h:Matches star (star::p) t) :
 Matches star (star::p) s := by
 obtain ⟨u,hu,h⟩:=matches_star.1 h
 exact matches_star.2 ⟨u,hu.trans hs,h⟩

lemma matches_append {u:List α} (hu:star∉u) : Matches star (u++p) s ↔ ∃t,s=u++t ∧ Matches star p t := by
 induction u generalizing s with
 | nil=>simp
 | cons c u ih=>
  rw [mem_cons,not_or] at hu
  rw [cons_append,matches_symbol (Ne.symm hu.1)]
  constructor
  · rintro ⟨t,rfl,h⟩
    obtain ⟨r,rfl,hr⟩:=(ih hu.2).1 h
    exact ⟨r,rfl,hr⟩
  · rintro ⟨t,rfl,h⟩
    exact ⟨u++t,rfl,(ih hu.2).2 ⟨t,rfl,h⟩⟩

lemma matches_nil_right : Matches star p [] ↔ ∀c∈p,c=star := by
 induction p with
 | nil=>simp [matches_nil]
 | cons c p ih=>
  rw [forall_mem_cons,←ih]
  by_cases hc : c=star
  · subst hc
    simp [matches_star]
  · simp [matches_symbol hc,hc]

/-- Writing each symbol of an alphabet as one symbol, and each other one so that its first symbol
is none of the alphabet's, changes no match of a word over the alphabet. -/
theorem matches_encode {β:Type} {star':β} (code:α → List β) (g:α → β) (A:α → Prop)
 (hst:code star=[star']) (hin:∀c,A c → code c=[g c] ∧ c≠star ∧ g c≠star')
 (hi:∀c d,A c → A d → g c=g d → c=d)
 (ho:∀c,c≠star → ¬ A c → ∃b bs,code c=b::bs ∧ b≠star' ∧ ∀d,A d → g d≠b)
 (hs:∀c∈s,A c) : Matches star' (p.flatMap code) (s.map g) ↔ Matches star p s := by
 induction p generalizing s with
 | nil=>simp [matches_nil]
 | cons c p ih=>
  rw [flatMap_cons]
  by_cases hc : c=star
  · subst hc
    rw [hst,singleton_append,matches_star,matches_star]
    constructor
    · rintro ⟨t,ht,h⟩
      obtain ⟨r,hr,rfl⟩:=List.suffix_map_iff.1 ht
      exact ⟨r,hr,(ih fun d hd=>hs d (hr.mem hd)).1 h⟩
    · rintro ⟨t,ht,h⟩
      exact ⟨t.map g,ht.map g,(ih fun d hd=>hs d (ht.mem hd)).2 h⟩
  · by_cases hA : A c
    · obtain ⟨hcd,_,hg⟩:=hin c hA
      rw [hcd,singleton_append,matches_symbol hg,matches_symbol hc]
      constructor
      · rintro ⟨t,ht,h⟩
        obtain ⟨d,r,rfl,hd,rfl⟩:=List.map_eq_cons_iff.1 ht
        rw [forall_mem_cons] at hs
        exact ⟨r,by rw [hi d c hs.1 hA hd],(ih hs.2).1 h⟩
      · rintro ⟨t,rfl,h⟩
        rw [forall_mem_cons] at hs
        exact ⟨t.map g,rfl,(ih hs.2).2 h⟩
    · obtain ⟨b,bs,hcd,hb,hg⟩:=ho c hc hA
      rw [hcd,cons_append,matches_symbol hb,matches_symbol hc]
      constructor
      · rintro ⟨t,ht,-⟩
        obtain ⟨d,r,rfl,hd,-⟩:=List.map_eq_cons_iff.1 ht
        exact absurd hd (hg d (hs d mem_cons_self))
      · rintro ⟨t,rfl,-⟩
        exact absurd (hs c mem_cons_self) hA
end

section
variable [DecidableEq α]
/-- The pattern with the word `fill i` in place of a star at position `i`. -/
def expand (star:α) (fill:ℕ → List α) (p:List α) : List α :=
 (p.mapIdx fun i c=>if c=star then fill i else [c]).flatten

variable {star:α} {p s:List α}
lemma expand_cons (fill:ℕ → List α) (c:α) : expand star fill (c::p) =
  (if c=star then fill 0 else [c])++expand star (fun i=>fill (i+1)) p := by
 simp [expand,mapIdx_cons]

lemma matches_iff_expand : Matches star p s ↔ ∃fill,s=expand star fill p := by
 constructor
 · intro h
   induction h with
   | nil=>exact ⟨fun _=>[],rfl⟩
   | symbol hc _ ih=>
    obtain ⟨fill,rfl⟩:=ih
    refine ⟨fun i=>fill (i-1),?_⟩
    simp [expand_cons,hc]
   | star w _ ih=>
    obtain ⟨fill,rfl⟩:=ih
    refine ⟨fun i=>if i=0 then w else fill (i-1),?_⟩
    simp [expand_cons]
 · rintro ⟨fill,rfl⟩
   induction p generalizing fill with
   | nil=>exact .nil
   | cons c p ih=>
    rw [expand_cons]
    by_cases hc : c=star
    · subst hc
      rw [if_pos rfl]
      exact .star _ (ih _)
    · rw [if_neg hc]
      exact .symbol hc (ih _)
end

section
variable {σ τ β:Type}
/-- At most `n` rounds of a step that answers or goes on. -/
def loop (step:σ → β ⊕ σ) : ℕ → σ → Option β
 | 0,_=>none
 | n+1,s=>
  match step s with
  | .inl b=>some b
  | .inr s=>loop step n s

variable {step:σ → β ⊕ σ} {n:ℕ} {s s':σ}
lemma loop_inl {b:β} (h:step s=.inl b) : loop step (n+1) s=some b := by
 simp only [loop,h]

lemma loop_inr (h:step s=.inr s') : loop step (n+1) s=loop step n s' := by
 simp only [loop,h]

lemma loop_map {other:τ → β ⊕ τ} (view:σ → τ) (h:∀s,other (view s)=(step s).map id view) :
 loop other n (view s)=loop step n s := by
 induction n generalizing s with
 | zero=>rfl
 | succ n ih=>
  have hv:=h s
  cases hs : step s with
  | inl b=>
   rw [hs] at hv
   rw [loop_inl hs,loop_inl hv,id_eq]
  | inr s' =>
   rw [hs] at hv
   rw [loop_inr hs,loop_inr hv,ih]
end

/-- What is left of the pattern and of the word, and what was left of both at the last star: the
pattern after it, and the word from the place up to which the star reaches. -/
structure Cursor (α:Type) where
 pattern : List α
 word : List α
 retry : Option (List α×List α)

/-- What the cursor can still find: a match from here, or one in which the last star takes more. -/
def Accepts (star:α) (k:Cursor α) : Prop :=
 Matches star k.pattern k.word ∨
  ∃q c t,k.retry=some (q,c::t) ∧ Matches star (star::q) t

structure Valid (star:α) (P S:ℕ) (k:Cursor α) : Prop where
 free : star∉k.word
 pattern_le : k.pattern.length≤P
 word_le : k.word.length≤S
 -- since the last star only equal symbols have been passed
 passed : ∀q t,k.retry=some (q,t) →
  q.length≤P ∧ t.length≤S ∧ ∃u,star∉u ∧ q=u++k.pattern ∧ t=u++k.word

def retryLength (k:Cursor α) : ℕ :=
 k.retry.elim 0 fun r=>r.2.length

variable {star:α} {P S:ℕ} {p q s t:List α}
lemma weight_lt {a b l P:ℕ} (hab:a<b) (hl:l≤P) (m:ℕ) : a*(P+1)+l<b*(P+1)+m := by
 have h:(a+1)*(P+1)≤b*(P+1):=Nat.mul_le_mul_right _ hab
 rw [Nat.succ_mul] at h
 omega

variable {c:α} {retry:Option (List α×List α)} {k:Cursor α}
lemma matches_retry {u:List α} (hu:star∉u) (ht:c::t=u++s)
 (h:Matches star (star::(u++p)) t) : ∃r,Matches star p r ∧ r <:+ s ∧ r.length<s.length := by
 obtain ⟨r,hr,h⟩:=matches_star.1 h
 obtain ⟨v,rfl,hv⟩:=(matches_append hu).1 h
 have hlt:v.length<s.length:=by
  have hl:=congrArg List.length ht
  have hle:=hr.length_le
  simp only [length_cons,length_append] at hl hle
  omega
 have hv':v <:+ u++s:=by
  rw [←ht]
  exact ((suffix_append u v).trans hr).trans (suffix_cons c t)
 exact ⟨v,hv,suffix_of_suffix_length_le hv' (suffix_append u s) hlt.le,hlt⟩

lemma accepts_end (h:Valid star P S ⟨p,[],retry⟩) : Accepts star ⟨p,[],retry⟩ ↔ ∀c∈p,c=star := by
 rw [←matches_nil_right]
 constructor
 · rintro (hp|⟨q,c,t,hrt,ht⟩)
   · exact hp
   · obtain ⟨_,_,u,hu,rfl,hw⟩:=h.passed _ _ hrt
     obtain ⟨r,_,_,hr⟩:=matches_retry hu hw ht
     simp at hr
 · exact .inl

lemma accepts_symbol (hc:c≠star) : Accepts star ⟨c::p,c::s,retry⟩ ↔ Accepts star ⟨p,s,retry⟩ := by
 simp only [Accepts,matches_symbol hc,List.cons.injEq,true_and,exists_eq_left']

lemma accepts_star (h:Valid star P S ⟨star::p,c::s,retry⟩) : Accepts star ⟨star::p,c::s,retry⟩ ↔
  Accepts star ⟨p,c::s,some (p,c::s)⟩ := by
 have hn:Accepts star ⟨p,c::s,some (p,c::s)⟩ ↔ Matches star (star::p) (c::s):=by
  rw [matches_star_cons]
  simp only [Accepts,Option.some.injEq,Prod.mk.injEq,List.cons.injEq]
  constructor
  · rintro (hp|⟨_,_,_,⟨rfl,rfl,rfl⟩,ht⟩)
    · exact .inl hp
    · exact .inr ⟨_,_,⟨rfl,rfl⟩,ht⟩
  · rintro (hp|⟨_,_,⟨rfl,rfl⟩,ht⟩)
    · exact .inl hp
    · exact .inr ⟨_,_,_,⟨rfl,rfl,rfl⟩,ht⟩
 rw [hn]
 constructor
 · rintro (hp|⟨q,d,t,hrt,ht⟩)
   · exact hp
   · -- the earlier star can stay where it is: this star then takes what the other gave up
     obtain ⟨_,_,u,hu,rfl,hw⟩:=h.passed _ _ hrt
     obtain ⟨r,hr,hs,_⟩:=matches_retry hu hw ht
     exact matches_star_mono hs hr
 · exact .inl

lemma accepts_mismatch (hc:p.head?≠some c) (hs:p.head?≠some star) : Accepts star ⟨p,c::s,retry⟩ ↔
  ∃q d t,retry=some (q,d::t) ∧ Matches star (star::q) t := by
 have hp:¬ Matches star p (c::s):=by
  intro h
  cases p with
  | nil=>exact absurd (matches_nil.1 h) (cons_ne_nil c s)
  | cons d p=>
   have hd:d≠star:=fun heq=>hs (congrArg some heq)
   obtain ⟨r,hr,-⟩:=(matches_symbol hd).1 h
   exact hc (congrArg some (List.cons.inj hr).1.symm)
 simp only [Accepts,hp,false_or]

lemma accepts_retry : Accepts star ⟨q,t,some (q,t)⟩ ↔
  ∃q' d t',some (q,c::t)=some (q',d::t') ∧ Matches star (star::q') t' := by
 simp only [Option.some.injEq,Prod.mk.injEq,List.cons.injEq]
 constructor
 · rintro (h|⟨_,d,r,heq,h⟩)
   · exact ⟨q,c,t,⟨rfl,rfl,rfl⟩,matches_star_cons.2 (.inl h)⟩
   · simp only [Option.some.injEq,Prod.mk.injEq] at heq
     obtain ⟨rfl,rfl⟩:=heq
     exact ⟨q,c,_,⟨rfl,rfl,rfl⟩,matches_star_cons.2 (.inr ⟨d,r,rfl,h⟩)⟩
 · rintro ⟨_,_,_,⟨rfl,rfl,rfl⟩,h⟩
   obtain h|⟨d,r,rfl,hr⟩:=matches_star_cons.1 h
   · exact .inl h
   · exact .inr ⟨q,d,r,rfl,hr⟩

variable [DecidableEq α]
def advance (star:α) : Cursor α → Bool ⊕ Cursor α
 | ⟨p,[],_⟩=>.inl (p.all (· = star))
 | ⟨p,c::s,retry⟩=>
  if p.head?=some c then .inr ⟨p.tail,s,retry⟩
  else if p.head?=some star then .inr ⟨p.tail,c::s,some (p.tail,c::s)⟩
  else
   match retry with
   | some (q,t)=>.inr ⟨q,t.tail,some (q,t.tail)⟩
   | none=>.inl false

/-- The stars left, then the places left for the last star, then the pattern left. -/
def weight (star:α) (P S:ℕ) (k:Cursor α) : ℕ :=
 (k.pattern.count star*(S+2)+retryLength k)*(P+1)+k.pattern.length

lemma advance_answer {b:Bool} (h:Valid star P S k) (hs:advance star k=.inl b) :
 b=true ↔ Accepts star k := by
 obtain ⟨p,s,retry⟩:=k
 cases s with
 | nil=>
  simp only [advance,Sum.inl.injEq] at hs
  rw [accepts_end h,←hs,all_eq_true]
  simp only [decide_eq_true_eq]
 | cons c s=>
  simp only [advance] at hs
  split_ifs at hs with hc hst
  cases retry with
  | some r=>simp at hs
  | none=>
   rw [accepts_mismatch hc hst]
   simp only [Sum.inl.injEq] at hs
   simp [←hs]

/-- A move keeps what can be found, and the weight goes down. -/
structure Progress (star:α) (P S:ℕ) (k k':Cursor α) : Prop where
 valid : Valid star P S k'
 accepts : Accepts star k' ↔ Accepts star k
 weight_lt : weight star P S k'<weight star P S k

lemma progress_symbol (h:Valid star P S ⟨c::p,c::s,retry⟩) :
 Progress star P S ⟨c::p,c::s,retry⟩ ⟨p,s,retry⟩ := by
 have hf:¬ star=c ∧ star∉s:=by simpa only [mem_cons,not_or] using h.free
 refine ⟨⟨hf.2,?_,?_,?_⟩,(accepts_symbol (Ne.symm hf.1)).symm,?_⟩
 · exact (Nat.le_succ _).trans h.pattern_le
 · exact (Nat.le_succ _).trans h.word_le
 · intro q t hr
   obtain ⟨hq,ht,u,hu,rfl,rfl⟩:=h.passed q t hr
   refine ⟨hq,ht,u++[c],?_,?_,?_⟩
   · simp [hu,hf.1]
   · simp
   · simp
 · simp [weight,retryLength,Ne.symm hf.1]

lemma progress_star (h:Valid star P S ⟨star::p,c::s,retry⟩) :
 Progress star P S ⟨star::p,c::s,retry⟩ ⟨p,c::s,some (p,c::s)⟩ := by
 have hp:p.length≤P:=(Nat.le_succ _).trans h.pattern_le
 have hw:s.length+1≤S:=h.word_le
 refine ⟨⟨h.free,hp,h.word_le,?_⟩,(accepts_star h).symm,?_⟩
 · intro q t hr
   simp only [Option.some.injEq,Prod.mk.injEq] at hr
   obtain ⟨rfl,rfl⟩:=hr
   exact ⟨hp,h.word_le,[],by simp,rfl,rfl⟩
 · refine weight_lt ?_ hp _
   simp only [retryLength,Option.elim_some,length_cons,count_cons_self,Nat.succ_mul]
   omega

lemma progress_retry {d:α} (h:Valid star P S ⟨p,c::s,some (q,d::t)⟩) (hc:p.head?≠some c)
 (hs:p.head?≠some star) : Progress star P S ⟨p,c::s,some (q,d::t)⟩ ⟨q,t,some (q,t)⟩ := by
 obtain ⟨hq,ht,u,hu,hp,hw⟩:=h.passed q (d::t) rfl
 have htl:t.length≤S:=(Nat.le_succ _).trans ht
 refine ⟨⟨?_,hq,htl,?_⟩,?_,?_⟩
 · intro hm
   have hm:star∈u++c::s:=hw ▸ mem_cons_of_mem d hm
   exact (List.mem_append.1 hm).elim hu h.free
 · intro q' t' hr
   simp only [Option.some.injEq,Prod.mk.injEq] at hr
   obtain ⟨rfl,rfl⟩:=hr
   exact ⟨hq,htl,[],by simp,rfl,rfl⟩
 · rw [accepts_mismatch hc hs]
   exact accepts_retry
 · refine weight_lt ?_ hq _
   have hcn:q.count star=p.count star:=by
    rw [hp,count_append,count_eq_zero_of_not_mem hu,Nat.zero_add]
   simp [retryLength,hcn]

lemma advance_next {k':Cursor α} (h:Valid star P S k) (hs:advance star k=.inr k') :
 Progress star P S k k' := by
 obtain ⟨p,s,retry⟩:=k
 cases s with
 | nil=>simp [advance] at hs
 | cons c s=>
  simp only [advance] at hs
  split_ifs at hs with hc hst
  · obtain ⟨p,rfl⟩:=List.head?_eq_some_iff.1 hc
    cases hs
    exact progress_symbol h
  · obtain ⟨p,rfl⟩:=List.head?_eq_some_iff.1 hst
    cases hs
    exact progress_star h
  · cases retry with
    | none=>simp at hs
    | some r=>
     obtain ⟨q,t⟩:=r
     cases t with
     | nil=>
      obtain ⟨_,_,u,_,_,hw⟩:=h.passed q [] rfl
      simp at hw
     | cons d t=>
      cases hs
      exact progress_retry h hc hst

def budget (p s:List α) : ℕ :=
 (p.length*(s.length+2)+1)*(p.length+1)

lemma loop_advance {n:ℕ} (h:Valid star P S k) (hn:weight star P S k<n) :
 ∃b,loop (advance star) n k=some b ∧ (b=true ↔ Accepts star k) := by
 induction n generalizing k with
 | zero=>omega
 | succ n ih=>
  cases hs : advance star k with
  | inl b=>exact ⟨b,loop_inl hs,advance_answer h hs⟩
  | inr k' =>
   have hm:=advance_next h hs
   obtain ⟨b,hb,hi⟩:=ih hm.valid (Nat.lt_of_lt_of_le hm.weight_lt (Nat.lt_succ_iff.1 hn))
   exact ⟨b,(loop_inr hs).trans hb,hi.trans hm.accepts⟩

lemma loop_advance_start (h:star∉s) :
 ∃b,loop (advance star) (budget p s) ⟨p,s,none⟩=some b ∧ (b=true ↔ Matches star p s) := by
 have hv:Valid star p.length s.length ⟨p,s,none⟩:=
  ⟨h,le_rfl,le_rfl,fun q t hr=>nomatch hr⟩
 have hw:weight star p.length s.length ⟨p,s,none⟩<budget p s:=by
  have hle:p.count star*(s.length+2)≤p.length*(s.length+2):=
   Nat.mul_le_mul_right _ count_le_length
  have hlt:=weight_lt (Nat.lt_succ_of_le hle) (@le_rfl _ _ p.length) 0
  simpa [weight,retryLength,budget] using hlt
 obtain ⟨b,hb,hi⟩:=loop_advance hv hw
 refine ⟨b,hb,hi.trans ?_⟩
 simp [Accepts]
end InvariantProtocol.StarPattern
