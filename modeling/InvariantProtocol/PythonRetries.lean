import InvariantProtocol.GoText
import InvariantProtocol.Reordering
import InvariantProtocol.StatusCodes
import Mathlib.Algebra.Order.Ring.Rat
/-! The retries of the Python HTTP client. Floating-point numbers are rational here. -/
namespace InvariantProtocol.PythonRetries
open List ListRelations GoResult GoText Reordering StatusCodes

inductive PyValue where
 | none
 | bool (b:Bool)
 | int (n:ℤ)
 | float (q:ℚ)
 | str (s:String)
 | list (items:List PyValue)
 | dict (members:List (String×PyValue))

abbrev Dict:=List (String×PyValue)

/-- `float(..)` of a string, and `repr`. -/
structure Library where
 float : String → Option ℚ
 repr : PyValue → String

/-- The error is the text for the path of what is parsed. -/
abbrev Parsed (α:Type):=Except (String → String) α

def fails {α:Type} (text:String) : Parsed α:=.error fun path=>path++text

def field (data:Dict) (snake camel:String) : PyValue :=
 (data.lookup snake).getD ((data.lookup camel).getD .none)

abbrev Name:=String×String

def parseMethodConfigName : PyValue → Parsed Name
 | .dict raw=>
  match (raw.lookup "service").getD (.str ""),(raw.lookup "method").getD (.str "") with
  | .str service,.str method=>
   if method≠"" ∧ service="" then .error fun path=>path++".method requires "++path++".service"
   else if service="" then .ok ("","")
   else .ok (service,method)
  | _,_=>.error fun path=>path++".service and "++path++".method must be strings"
 | _=>fails " must be a dict"

structure RetryPolicy where
 maxAttempts : ℤ
 initialBackoff : ℚ
 maxBackoff : ℚ
 backoffMultiplier : ℚ
 retryableStatusCodes : List Code
 retryUnsafeMethods : Bool
 attempts_limited : 1 < maxAttempts ∧ maxAttempts≤5
 backoffs_nonneg : 0 ≤ initialBackoff ∧ 0 ≤ maxBackoff ∧ 0<backoffMultiplier

def retryUnsafeMethodsValue (data:Dict) : Parsed (Option Bool) :=
 match field data "retry_unsafe_methods" "retryUnsafeMethods" with
 | .none=>.ok none
 | .bool b=>.ok (some b)
 | _=>fails ".retry_unsafe_methods must be a boolean"

def grpcName (code:Code) : String :=
 if code=.cancelled then "CANCELLED" else code.connectName.toUpper

def parseRetryableCode (lib:Library) (value:PyValue) : Parsed Code :=
 match value with
 | .int n=>
  match Code.all.find? fun code=>(code.number : ℤ)=n with
  | some code=>.ok code
  | none=>fails (" has unknown gRPC status code number "++lib.repr value)
 | .str s=>
  match Code.all.find? fun code=>grpcName code=s with
  | some code=>.ok code
  | none=>fails (" has unknown gRPC status code "++lib.repr value)
 | _=>fails " must be a gRPC status code string or number"

def parseMaxAttempts : PyValue → Parsed {n:ℤ // 1<n ∧ n≤5}
 | .none=>fails ".max_attempts is required"
 | .int n=>
  if h : n≤1 then fails ".max_attempts must be greater than 1"
  else .ok ⟨min n 5,by omega⟩
 | _=>fails ".max_attempts must be an integer"

def numberOf (lib:Library) : PyValue → Option ℚ
 | .bool b=>some (if b then 1 else 0)
 | .int n=>some n
 | .float q=>some q
 | .str s=>lib.float s
 | _=>none

def parseBackoffMultiplier (lib:Library) : PyValue → Parsed {q:ℚ // 0<q}
 | .none=>fails ".backoff_multiplier is required"
 | value=>
  match numberOf lib value with
  | none=>fails ".backoff_multiplier must be a number"
  | some q=>if h : q≤0 then fails ".backoff_multiplier must be greater than 0" else .ok ⟨q,Rat.not_le.1 h⟩

def nonNegative (name:String) (seconds:ℚ) : Parsed {q:ℚ // 0≤q} :=
 if h : seconds<0 then fails (name++" must be non-negative") else .ok ⟨seconds,Rat.not_lt.1 h⟩

/-- `str.strip`, which takes four separators besides the spaces of Go. -/
def strip (s:String) : String :=
 let space := fun c=>isSpace c || (0x1C≤c.toNat && c.toNat≤0x1F)
 String.ofList ((s.toList.dropWhile space).reverse.dropWhile space).reverse

def durationSeconds (lib:Library) (name:String) : PyValue → Parsed {q:ℚ // 0≤q}
 | .none=>fails (name++" is required")
 | .str s=>
  let trimmed:=strip s
  if trimmed.toList.getLast?=some 's' then
   match lib.float (String.ofList trimmed.toList.dropLast) with
   | none=>fails (name++" must be a parseable duration")
   | some seconds=>nonNegative name seconds
  else fails (name++" must be a duration string ending in 's'")
 | .list _=>fails (name++" must be a duration string like '0.1s'")
 | .dict _=>fails (name++" must be a duration string like '0.1s'")
 | value=>nonNegative name ((numberOf lib value).getD 0)

def parseCodes (lib:Library) (codes:List PyValue) : Parsed (List Code) :=
 codes.zipIdx.mapM fun (value,i)=>
  (parseRetryableCode lib value).mapError fun text path=>
   text (path++".retryable_status_codes["++toString i++"]")

def parsePolicy (lib:Library) (unsafeMethods:Option Bool) (raw:Dict) : Parsed RetryPolicy :=
 match field raw "retryable_status_codes" "retryableStatusCodes" with
 | .list (first::others)=>do
  let codes ← parseCodes lib (first::others)
  let ⟨maxAttempts,hattempts⟩ ← parseMaxAttempts (field raw "max_attempts" "maxAttempts")
  let ⟨initial,hinitial⟩ ← durationSeconds lib ".initial_backoff" (field raw "initial_backoff" "initialBackoff")
  let ⟨maximal,hmaximal⟩ ← durationSeconds lib ".max_backoff" (field raw "max_backoff" "maxBackoff")
  let ⟨multiplier,hmultiplier⟩ ← parseBackoffMultiplier lib (field raw "backoff_multiplier" "backoffMultiplier")
  let inner ← retryUnsafeMethodsValue raw
  return ⟨maxAttempts,initial,maximal,multiplier,codes,(unsafeMethods.or inner).getD false,hattempts,
   hinitial,hmaximal,hmultiplier⟩
 | _=>fails ".retryable_status_codes must be a non-empty list"

/-- The path is that of the method config, which has its own value for unsafe methods checked. -/
def parseRetryPolicy (lib:Library) (methodConfig:Dict) (unsafeMethods:Option Bool) : Parsed (Option RetryPolicy) :=
 match field methodConfig "retry_policy" "retryPolicy" with
 | .none=>.ok none
 | .dict raw=>
  Except.mapError (fun text path=>text (path++".retry_policy")) (some <$> parsePolicy lib unsafeMethods raw)
 | _=>fails ".retry_policy must be a dict"

structure MethodConfig where
 names : List Name
 retryPolicy : Option RetryPolicy

abbrev Seen:=List (Name×String)

def addName (path:String) (state:Seen×List Name) (raw:PyValue) : Except String (Seen×List Name):=do
 let here:=path++".name["++toString state.2.length++"]"
 let name ← (parseMethodConfigName raw).mapError (· here)
 match state.1.lookup name with
 | some other=>.error (here++" duplicates "++other)
 | none=>return ((name,here)::state.1,state.2++[name])

/-- A method config and its names, of which there is at least one. -/
def rawNames (path:String) : PyValue → Except String (Dict×List PyValue)
 | .dict config=>
  match config.lookup "name" with
  | none=>.error (path++".name is required")
  | some (.list (first::others))=>.ok (config,first::others)
  | some _=>.error (path++".name must be a non-empty list")
 | _=>.error (path++" must be a dict")

def addConfig (lib:Library) (state:Seen×List MethodConfig) (raw:PyValue) :
  Except String (Seen×List MethodConfig):=do
 let path := "service_config.method_config["++toString state.2.length++"]"
 let (config,raws) ← rawNames path raw
 let (seen,names) ← raws.foldlM (addName path) (state.1,[])
 let unsafeMethods ← (retryUnsafeMethodsValue config).mapError (· path)
 let policy ← (parseRetryPolicy lib config unsafeMethods).mapError (· path)
 return (seen,state.2++[⟨names,policy⟩])

def parseMethodConfigs (lib:Library) : PyValue → Except String (List MethodConfig)
 | .none=>.ok []
 | .dict serviceConfig=>
  match field serviceConfig "method_config" "methodConfig" with
  | .none=>.ok []
  | .list raws=>Prod.snd <$> raws.foldlM (addConfig lib) ([],[])
  | _=>.error "service_config.method_config must be a list"
 | _=>.error "service_config must be a dict"

def splitMethodPath (methodPath:String) : String×String :=
 let trimmed:=String.ofList (trimChar '/' methodPath.toList)
 (cutLast '/' trimmed).getD (trimmed,"")

def methodNameMatchScore (name:Name) (service method:String) : ℤ :=
 if name.1="" ∧ name.2="" then 0
 else if name.1≠service then -1
 else if name.2="" then 1
 else if name.2=method then 2
 else -1

def better (service method:String) (best:ℤ×Option RetryPolicy) (found:Name×Option RetryPolicy) :
  ℤ×Option RetryPolicy :=
 let score:=methodNameMatchScore found.1 service method
 if best.1<score then (score,found.2) else best

def retryPolicyFor (configs:List MethodConfig) (methodPath:String) : Option RetryPolicy :=
 let (service,method):=splitMethodPath methodPath
 (configs.foldl (fun best config=>
  config.names.foldl (fun best name=>better service method best (name,config.retryPolicy)) best) (-1,none)).2

section
variable {service method:String} {a:Name}
def named (configs:List MethodConfig) : List (Name×Option RetryPolicy) :=
 configs.flatMap fun config=>config.names.map fun name=>(name,config.retryPolicy)

lemma retryPolicyFor_eq (configs:List MethodConfig) (methodPath:String) :
 retryPolicyFor configs methodPath=((named configs).foldl
  (better (splitMethodPath methodPath).1 (splitMethodPath methodPath).2) (-1,none)).2 := by
 simp only [retryPolicyFor,named,foldl_flatMap,foldl_map]

lemma better_foldl (pairs:List (Name×Option RetryPolicy)) (best:ℤ×Option RetryPolicy) :
 let r := pairs.foldl (better service method) best
 (∀x∈pairs,methodNameMatchScore x.1 service method≤r.1) ∧ best.1≤r.1 ∧
  (r=best ∨ ∃x∈pairs,best.1<r.1 ∧ methodNameMatchScore x.1 service method=r.1 ∧ x.2=r.2):=by
 induction pairs generalizing best with
 | nil=>simp
 | cons x pairs ih=>
  obtain ⟨ha,hle,hf⟩:=ih (better service method best x)
  rw [foldl_cons]
  by_cases hlt : best.1 < methodNameMatchScore x.1 service method
  · have hb:better service method best x=(methodNameMatchScore x.1 service method,x.2):=if_pos hlt
    rw [hb] at ha hle hf ⊢
    refine ⟨forall_mem_cons.2 ⟨hle,ha⟩,Int.le_trans (Int.le_of_lt hlt) hle,.inr ?_⟩
    rcases hf with hsm|⟨y,hy,hg,hs,hp⟩
    · rw [hsm]
      exact ⟨x,mem_cons_self,hlt,rfl,rfl⟩
    · exact ⟨y,mem_cons_of_mem _ hy,Int.lt_trans hlt hg,hs,hp⟩
  · have hb:better service method best x=best:=if_neg hlt
    rw [hb] at ha hle hf ⊢
    refine ⟨forall_mem_cons.2 ⟨by omega,ha⟩,hle,hf.imp id ?_⟩
    rintro ⟨y,hy,hr⟩
    exact ⟨y,mem_cons_of_mem _ hy,hr⟩

lemma score_cases (h:0 ≤ methodNameMatchScore a service method) :
 a=("","") ∧ methodNameMatchScore a service method=0 ∨
 a=(service,"") ∧ methodNameMatchScore a service method=1 ∨
 a=(service,method) ∧ methodNameMatchScore a service method=2 := by
 obtain ⟨s,m⟩:=a
 revert h
 unfold methodNameMatchScore
 split_ifs with hem hs ha hmethod
 · exact fun _=>.inl ⟨Prod.ext hem.1 hem.2,rfl⟩
 · nofun
 · exact fun _=>.inr (.inl ⟨Prod.ext (Classical.not_not.1 hs) ha,rfl⟩)
 · exact fun _=>.inr (.inr ⟨Prod.ext (Classical.not_not.1 hs) hmethod,rfl⟩)
 · nofun

lemma score_service (h:service≠"") : methodNameMatchScore (service,"") service method=1 := by
 simp [methodNameMatchScore,h]

lemma score_exact (h:method≠"") : methodNameMatchScore (service,method) service method=2 := by
 simp [methodNameMatchScore,h]

variable {pairs:List (Name×Option RetryPolicy)} {p:Option RetryPolicy}
lemma lookup_of_mem (hn:(pairs.map Prod.fst).Nodup) (h:(a,p)∈pairs) : pairs.lookup a=some p := by
 induction pairs with
 | nil=>cases h
 | cons x pairs ih=>
  rw [map_cons,nodup_cons] at hn
  rcases mem_cons.1 h with rfl|h
  · simp
  · have hne:(a == x.1)=false:=by
     refine beq_false_of_ne ?_
     rintro rfl
     exact hn.1 (mem_map.2 ⟨_,h,rfl⟩)
    rw [lookup_cons,hne]
    exact ih hn.2 h

lemma better_lookup (hnd:(pairs.map Prod.fst).Nodup) :
 (pairs.foldl (better service method) (-1,none)).2=((pairs.lookup (service,method)).or
  ((pairs.lookup (service,"")).or (pairs.lookup ("","")))).getD none := by
 obtain ⟨hal,-,hf⟩:=@better_foldl service method pairs (-1,none)
 generalize pairs.foldl (better service method) (-1,none)=r at hal hf
 have hab:∀a,r.1 < methodNameMatchScore a service method → pairs.lookup a=none:=by
  intro a hlt
  cases hfn : pairs.lookup a with
  | none=>rfl
  | some p=>exact absurd (hal _ (mem_of_lookup hfn)) (Int.not_le.2 hlt)
 rcases hf with rfl|⟨⟨x,p⟩,hx,hp,hsc,rfl⟩
 · have hn:∀a,0 ≤ methodNameMatchScore a service method → pairs.lookup a=none:=fun a ha=>
    hab a (Int.lt_of_lt_of_le (by decide) ha)
   have hem:methodNameMatchScore ("","") service method=0:=by simp [methodNameMatchScore]
   have hsr:0 ≤ methodNameMatchScore (service,"") service method:=by
    by_cases hs : service=""
    · simp [methodNameMatchScore,hs]
    · simp [score_service hs]
   have hex:0 ≤ methodNameMatchScore (service,method) service method:=by
    by_cases hm : method=""
    · rwa [hm] at hsr ⊢
    · simp [score_exact hm]
   rw [hn _ hex,hn _ hsr,hn _ (Int.le_of_eq hem.symm)]
   rfl
 · have hl:=lookup_of_mem hnd hx
   have hr:r.1=methodNameMatchScore x service method:=hsc.symm
   rcases score_cases (a := x) (hr ▸ hp) with ⟨rfl,h0⟩|⟨rfl,h1⟩|⟨rfl,h2⟩
   · by_cases hs : service=""
     · by_cases hm : method=""
       · rw [hs,hm,hl]
         rfl
       · rw [hab (service,method) (by rw [score_exact hm];omega),hs,hl]
         rfl
     · have hsr:pairs.lookup (service,"")=none:=hab _ (by rw [score_service hs];omega)
       by_cases hm : method=""
       · rw [hm,hsr,hl]
         rfl
       · rw [hab (service,method) (by rw [score_exact hm];omega),hsr,hl]
         rfl
   · by_cases hm : method=""
     · rw [hm,hl]
       rfl
     · rw [hab (service,method) (by rw [score_exact hm];omega),hl]
       rfl
   · rw [hl]
     rfl
end

section
variable {lib:Library}
def keys (seen:Seen) : List Name:=seen.map Prod.fst

lemma lookup_eq_none {seen:Seen} {name:Name} : seen.lookup name=none ↔ name∉keys seen := by
 simp only [lookup_eq_none_iff,keys,mem_map,not_exists,not_and]
 refine forall₂_congr fun x _=>?_
 rw [bne_iff_ne]
 exact ⟨fun h he=>h he.symm,fun h he=>h he.symm⟩

def withName (path:String) (s:Seen×List Name) (name:Name) : Seen×List Name :=
 ((name,path++".name["++toString s.2.length++"]")::s.1,s.2++[name])

variable {path:String}
lemma addName_ok {s t:Seen×List Name} {raw:PyValue} :
 addName path s raw=.ok t ↔ ∃name,parseMethodConfigName raw=.ok name ∧ name∉keys s.1 ∧ withName path s name=t := by
 simp only [addName,bind_ok,mapError_ok]
 refine exists_congr fun name=>and_congr_right fun _=>?_
 cases hf : s.1.lookup name with
 | none=>simp only [lookup_eq_none.1 hf,not_false_eq_true,true_and,pure_ok,withName]
 | some other=>
  have ho:name∈keys s.1:=by
   by_contra hnew
   rw [lookup_eq_none.2 hnew] at hf
   cases hf
  simp [ho]

abbrev ParsedNames (raws:List PyValue) (names:List Name) : Prop :=
 List.Forall₂ (fun raw name=>parseMethodConfigName raw=.ok name) raws names

variable {raws:List PyValue}
lemma addNames_ok {s t:Seen×List Name} (hs:(keys s.1).Nodup) (h:raws.foldlM (addName path) s=.ok t) :
 ∃new,ParsedNames raws new ∧ t.2=s.2++new ∧ keys t.1=new.reverse++keys s.1 ∧ (keys t.1).Nodup := by
 induction raws generalizing s with
 | nil=>
  cases h
  exact ⟨[],.nil,by simp,by simp,hs⟩
 | cons raw raws ih=>
  simp only [foldlM_cons,bind_ok,addName_ok] at h
  obtain ⟨_,⟨name,hnm,hf,rfl⟩,h⟩:=h
  have hnx:(keys (withName path s name).1).Nodup:=nodup_cons.2 ⟨hf,hs⟩
  obtain ⟨new,hnw,hn,hk,hnd⟩:=ih hnx h
  refine ⟨name::new,.cons hnm hnw,by simp [hn,withName],?_,hnd⟩
  rw [hk,reverse_cons,append_assoc]
  rfl

lemma addNames_of (path:String) {new:List Name} {s:Seen×List Name}
 (hnw:ParsedNames raws new) (hn:(new.reverse++keys s.1).Nodup) :
 ∃t,raws.foldlM (addName path) s=.ok t ∧ t.2=s.2++new ∧ keys t.1=new.reverse++keys s.1 := by
 induction hnw generalizing s with
 | nil=>exact ⟨s,rfl,by simp,by simp⟩
 | @cons raw name raws new hna _ ih=>
  rw [reverse_cons,append_assoc] at hn ⊢
  have hf:name∉keys s.1:=(nodup_cons.1 (nodup_append.1 hn).2.1).1
  have hnx:(new.reverse++keys (withName path s name).1).Nodup:=hn
  obtain ⟨t,ht,hnm,hk⟩:=ih hnx
  refine ⟨t,?_,by simp [hnm,withName],hk⟩
  rw [foldlM_cons,addName_ok.2 ⟨name,hna,hf,rfl⟩]
  exact ht

/-- A method config that parses, apart from names that are there already. -/
def Entry (lib:Library) (raw:PyValue) (config:MethodConfig) : Prop :=
 ∃dict names unsafeMethods,raw=.dict dict ∧ dict.lookup "name" = some (.list names) ∧ names≠[] ∧
  ParsedNames names config.names ∧ retryUnsafeMethodsValue dict=.ok unsafeMethods ∧
  parseRetryPolicy lib dict unsafeMethods=.ok config.retryPolicy

lemma rawNames_ok {raw:PyValue} {found:Dict×List PyValue} :
 rawNames path raw=.ok found ↔ raw=.dict found.1 ∧ found.1.lookup "name" = some (.list found.2) ∧ found.2≠[] := by
 obtain ⟨dict,names⟩:=found
 unfold rawNames
 split
 · rename_i config
   split
   all_goals
    rename_i hn
    simp only [Except.ok.injEq,Prod.mk.injEq,PyValue.dict.injEq,reduceCtorEq,false_iff,not_and]
   · rintro rfl
     simp [hn]
   · constructor
     · rintro ⟨rfl,rfl⟩
       exact ⟨rfl,hn,by simp⟩
     · rintro ⟨rfl,hs,-⟩
       exact ⟨rfl,by simpa [hn] using hs⟩
   · rename_i ho
     rintro rfl hs hne
     cases hn.symm.trans hs
     cases names with
     | nil=>exact hne rfl
     | cons first others=>exact ho first others rfl
 · rename_i ho
   simp only [reduceCtorEq,false_iff,not_and]
   rintro rfl
   exact absurd rfl (ho dict)

lemma addConfigs_ok {s t:Seen×List MethodConfig} (hs:(keys s.1).Nodup)
 (h:raws.foldlM (addConfig lib) s=.ok t) : ∃new,List.Forall₂ (Entry lib) raws new ∧ t.2=s.2++new ∧
  keys t.1=(new.flatMap MethodConfig.names).reverse++keys s.1 ∧ (keys t.1).Nodup := by
 induction raws generalizing s with
 | nil=>
  cases h
  exact ⟨[],.nil,by simp,by simp,hs⟩
 | cons raw raws ih=>
  simp only [foldlM_cons,bind_ok,addConfig,rawNames_ok,mapError_ok,pure_ok] at h
  obtain ⟨_,⟨⟨dict,names⟩,⟨rfl,hl,hne⟩,u,hf,unsafeMethods,hu,policy,hp,rfl⟩,h⟩:=h
  obtain ⟨own,ho,hn,hk,hnd⟩:=addNames_ok hs hf
  obtain ⟨new,hnw,hc,ha,hd⟩:=ih hnd h
  rw [nil_append] at hn
  refine ⟨⟨u.2,policy⟩::new,.cons ⟨dict,names,unsafeMethods,rfl,hl,hne,hn ▸ ho,hu,hp⟩ hnw,
   by simp [hc],?_,hd⟩
  rw [ha,hk,hn,flatMap_cons,reverse_append,append_assoc]

lemma addConfigs_of {new:List MethodConfig} {s:Seen×List MethodConfig}
 (hnw:List.Forall₂ (Entry lib) raws new) (hn:((new.flatMap MethodConfig.names).reverse++keys s.1).Nodup) :
 ∃t,raws.foldlM (addConfig lib) s=.ok t ∧ t.2=s.2++new := by
 induction hnw generalizing s with
 | nil=>exact ⟨s,rfl,by simp⟩
 | @cons raw config raws new hen _ ih=>
  obtain ⟨dict,names,unsafeMethods,rfl,hl,hne,hnm,hum,hp⟩:=hen
  rw [flatMap_cons,reverse_append,append_assoc] at hn
  obtain ⟨u,hu,ho,hk⟩:=addNames_of (s := (s.1,[])) ("service_config.method_config["++toString s.2.length++"]")
   hnm (nodup_append.1 hn).2.1
  rw [←hk] at hn
  rw [nil_append] at ho
  obtain ⟨t,ht,hc⟩:=ih (s := (u.1,s.2++[config])) hn
  refine ⟨t,?_,by simp [hc]⟩
  simp only [foldlM_cons,bind_ok,addConfig,rawNames_ok,mapError_ok,pure_ok]
  refine ⟨_,⟨(dict,names),⟨rfl,hl,hne⟩,u,hu,unsafeMethods,hum,_,hp,rfl⟩,?_⟩
  rw [ho]
  exact ht
end

section
variable {lib:Library}
/-- The same method config with its names in another order. -/
def SameEntry (raw raw':PyValue) : Prop :=
 ∃dict dict' names names',raw=.dict dict ∧ raw'=.dict dict' ∧ dict.lookup "name" = some (.list names) ∧
  dict'.lookup "name" = some (.list names') ∧ names.Perm names' ∧
  ∀key,key≠"name" → dict'.lookup key=dict.lookup key

def SameConfig (config config':MethodConfig) : Prop :=
 config.names.Perm config'.names ∧ config.retryPolicy=config'.retryPolicy

lemma Entry.same {raw raw':PyValue} {config:MethodConfig} (h:Entry lib raw config) (hsm:SameEntry raw raw') :
 ∃config',Entry lib raw' config' ∧ SameConfig config config' := by
 obtain ⟨dict,names,unsafeMethods,rfl,hl,hne,hn,hvalue,hpl⟩:=h
 obtain ⟨_,dict',_,names',⟨⟩,rfl,hol,hnw,hpm,ho⟩:=hsm
 cases hl.symm.trans hol
 obtain ⟨new,hpr,hp⟩:=perm_comp_forall₂ hpm.symm hn
 have hf:∀snake camel,snake≠"name" → camel≠"name" → field dict' snake camel=field dict snake camel:=by
  intro snake camel hs hc
  rw [field,field,ho snake hs,ho camel hc]
 refine ⟨⟨new,config.retryPolicy⟩,⟨dict',names',unsafeMethods,rfl,hnw,?_,hpr,?_,?_⟩,hp.symm,rfl⟩
 · rintro rfl
   exact hne hpm.eq_nil
 · rw [←hvalue,retryUnsafeMethodsValue,hf _ _ (by decide) (by decide)]
   rfl
 · rw [←hpl,parseRetryPolicy,hf _ _ (by decide) (by decide)]
   rfl

variable {configs:List MethodConfig}
lemma entries_same {raws raws':List PyValue}
 (h:List.Forall₂ (Entry lib) raws configs) (hsm:ReorderedBy SameEntry raws raws') :
 ∃configs',List.Forall₂ (Entry lib) raws' configs' ∧ ReorderedBy SameConfig configs configs' := by
 obtain ⟨ys,hys,hpm⟩:=hsm
 have hp:∃cs,List.Forall₂ (Entry lib) ys cs ∧ List.Forall₂ SameConfig configs cs:=by
  clear hpm
  induction hys generalizing configs with
  | nil=>
   cases h
   exact ⟨[],.nil,.nil⟩
  | cons hxy _ ih=>
   cases h with
   | cons hen hr=>
    obtain ⟨c,hc,hsm⟩:=hen.same hxy
    obtain ⟨cs,hcs,hs⟩:=ih hr
    exact ⟨c::cs,.cons hc hcs,.cons hsm hs⟩
 obtain ⟨cs,hcs,hs⟩:=hp
 obtain ⟨configs',hc',hpr⟩:=perm_comp_forall₂ hpm.symm hcs
 exact ⟨configs',hc',cs,hs,hpr.symm⟩

lemma named_perm {configs':List MethodConfig} (h:ReorderedBy SameConfig configs configs') :
 (named configs).Perm (named configs') := by
 obtain ⟨cs,hcs,hp⟩:=h
 refine List.Perm.trans ?_ (hp.flatMap_right _)
 clear hp
 induction hcs with
 | nil=>exact .nil
 | @cons config config' _ _ hs _ ih=>
  refine List.Perm.append ?_ ih
  dsimp only
  rw [hs.2]
  exact hs.1.map _

lemma keys_named (configs:List MethodConfig) : (named configs).map Prod.fst=configs.flatMap MethodConfig.names := by
 simp [named,map_flatMap,Function.comp_def]

lemma lookup_perm {pairs pairs':List (Name×Option RetryPolicy)} (hp:pairs.Perm pairs')
 (hn:(pairs.map Prod.fst).Nodup) (a:Name) : pairs'.lookup a=pairs.lookup a := by
 have hn':=(hp.map Prod.fst).nodup_iff.1 hn
 cases hf : pairs.lookup a with
 | some p=>exact lookup_of_mem hn' (hp.mem_iff.1 (mem_of_lookup hf))
 | none=>
  cases ho : pairs'.lookup a with
  | none=>rfl
  | some p=>
   rw [lookup_of_mem hn (hp.mem_iff.2 (mem_of_lookup ho))] at hf
   cases hf

/-- The list of method configs, or the names in some of them, in another order. -/
def Permuted (serviceConfig serviceConfig':PyValue) : Prop :=
 ∃dict dict' raws raws',serviceConfig=.dict dict ∧ serviceConfig'=.dict dict' ∧
  field dict "method_config" "methodConfig"=.list raws ∧ field dict' "method_config" "methodConfig"=.list raws' ∧
  ReorderedBy SameEntry raws raws'

lemma parseMethodConfigs_list {dict:Dict} {raws:List PyValue}
 (hfl:field dict "method_config" "methodConfig"=.list raws) :
 parseMethodConfigs lib (.dict dict)=.ok configs ↔
  List.Forall₂ (Entry lib) raws configs ∧ (configs.flatMap MethodConfig.names).Nodup := by
 simp only [parseMethodConfigs,hfl]
 constructor
 · intro h
   cases hf : raws.foldlM (addConfig lib) ([],[]) with
   | error err=>
    rw [hf] at h
    cases h
   | ok t=>
    rw [hf] at h
    cases h
    obtain ⟨new,hnw,hc,hk,hn⟩:=addConfigs_ok (s := ([],[])) nodup_nil hf
    rw [nil_append] at hc
    rw [hk,keys,map_nil,append_nil,nodup_reverse] at hn
    exact hc ▸ ⟨hnw,hn⟩
 · rintro ⟨hen,hn⟩
   obtain ⟨t,ht,hc⟩:=addConfigs_of (s := ([],[])) hen (by simpa [keys] using hn)
   rw [ht,←nil_append configs,←hc]
   rfl

variable {serviceConfig:PyValue}
lemma accepted_entries
 (h:parseMethodConfigs lib serviceConfig=.ok configs) : configs=[] ∨ ∃dict raws,serviceConfig=.dict dict ∧
  field dict "method_config" "methodConfig"=.list raws ∧ List.Forall₂ (Entry lib) raws configs ∧
  (configs.flatMap MethodConfig.names).Nodup := by
 cases serviceConfig with
 | none=>exact .inl (Except.ok.inj h).symm
 | dict dict=>
  cases hf : field dict "method_config" "methodConfig" with
  | list raws=>exact .inr ⟨dict,raws,rfl,hf,(parseMethodConfigs_list hf).1 h⟩
  | none=>
   simp only [parseMethodConfigs,hf] at h
   exact .inl (Except.ok.inj h).symm
  | _=>simp [parseMethodConfigs,hf] at h
 | _=>cases h

lemma accepted_nodup
 (h:parseMethodConfigs lib serviceConfig=.ok configs) : (configs.flatMap MethodConfig.names).Nodup := by
 rcases accepted_entries h with rfl|⟨_,_,-,-,-,hn⟩
 · exact .nil
 · exact hn

/-- The policy is that of the most specific name, whatever the order. -/
theorem policy_most_specific (lib:Library) (serviceConfig:PyValue) (configs:List MethodConfig)
  (h:parseMethodConfigs lib serviceConfig=.ok configs) (methodPath:String) :
  retryPolicyFor configs methodPath=
   (((named configs).lookup (splitMethodPath methodPath)).or
    (((named configs).lookup ((splitMethodPath methodPath).1,"")).or ((named configs).lookup ("","")))).getD none ∧
  (∀name policy,(named configs).lookup name=some policy ↔
   ∃config∈configs,name∈config.names ∧ config.retryPolicy=policy) ∧
  ∀serviceConfig',Permuted serviceConfig serviceConfig' → ∃configs',
   parseMethodConfigs lib serviceConfig'=.ok configs' ∧
   retryPolicyFor configs' methodPath=retryPolicyFor configs methodPath := by
 have hn:((named configs).map Prod.fst).Nodup := by
  rw [keys_named]
  exact accepted_nodup h
 refine ⟨?_,fun name policy=>?_,?_⟩
 · rw [retryPolicyFor_eq]
   obtain ⟨service,method⟩:=splitMethodPath methodPath
   exact better_lookup hn
 · have hm:(name,policy)∈named configs ↔ ∃config∈configs,name∈config.names ∧ config.retryPolicy=policy := by
    simp only [named,mem_flatMap,mem_map,Prod.mk.injEq]
    refine exists_congr fun config=>and_congr_right fun _=>⟨?_,fun h=>⟨name,h.1,rfl,h.2⟩⟩
    rintro ⟨_,hnm,rfl,hp⟩
    exact ⟨hnm,hp⟩
   exact ⟨fun hf=>hm.1 (mem_of_lookup hf),fun hf=>lookup_of_mem hn (hm.2 hf)⟩
 · rintro _ ⟨dict,dict',raws,raws',rfl,rfl,hfl,hf',hs⟩
   obtain ⟨hen,-⟩:=(parseMethodConfigs_list hfl).1 h
   obtain ⟨configs',he',hc⟩:=entries_same hen hs
   have hpr:=named_perm hc
   have hn':=(hpr.map Prod.fst).nodup_iff.1 hn
   have hd:=hn'
   rw [keys_named] at hd
   refine ⟨configs',(parseMethodConfigs_list hf').2 ⟨he',hd⟩,?_⟩
   rw [retryPolicyFor_eq,retryPolicyFor_eq,better_lookup hn,better_lookup hn']
   simp only [lookup_perm hpr hn]

def retryEntry (attempts initial:ℤ) (names:List Dict) : PyValue :=
 .dict [("name",.list (names.map .dict)),("retry_policy",.dict [
  ("retryable_status_codes",.list [.int 14]),("max_attempts",.int attempts),("initial_backoff",.int initial),
  ("max_backoff",.int 1),("backoff_multiplier",.int 2)])]

def methodConfigs (entries:List PyValue) : PyValue := .dict [("method_config",.list entries)]

def getName : Dict:=[("service",.str "shop.Orders"),("method",.str "Get")]

def ordersEntries : List PyValue :=
 [retryEntry 2 1 [[]],retryEntry 3 1 [[("service",.str "shop.Orders")]],
  retryEntry 4 1 [getName,[("service",.str "shop.Items")]]]

/-- The entries the other way round, and the names of one of them too. -/
def swappedEntries : List PyValue :=
 [retryEntry 4 1 [[("service",.str "shop.Items")],getName],
  retryEntry 3 1 [[("service",.str "shop.Orders")]],retryEntry 2 1 [[]]]

lemma entries_swapped : Permuted (methodConfigs ordersEntries) (methodConfigs swappedEntries) := by
 refine ⟨_,_,_,_,rfl,rfl,rfl,rfl,swappedEntries.reverse,?_,swappedEntries.reverse_perm⟩
 have hs:∀attempts names names',names.Perm names' →
   SameEntry (retryEntry attempts 1 names) (retryEntry attempts 1 names') := by
  intro attempts names names' hp
  refine ⟨_,_,_,_,rfl,rfl,rfl,rfl,hp.map _,fun key hk=>?_⟩
  simp only [lookup_cons,beq_eq_false_iff_ne.2 hk]
 exact .cons (hs _ _ _ .rfl) (.cons (hs _ _ _ .rfl) (.cons (hs _ _ _ (.swap _ _ _)) .nil))

def retryOf (attempts:ℕ) (initial:ℚ) (ha:1<attempts ∧ attempts≤5) (hi:0≤ initial) : RetryPolicy :=
 ⟨attempts,initial,1,2,[.unavailable],false,by omega,hi,by decide,by decide⟩

def ordersConfigs : List MethodConfig :=
 [⟨[("","")],some (retryOf 2 1 (by decide) (by decide))⟩,
  ⟨[("shop.Orders","")],some (retryOf 3 1 (by decide) (by decide))⟩,
  ⟨[("shop.Orders","Get"),("shop.Items","")],some (retryOf 4 1 (by decide) (by decide))⟩]

def noNumbers : Library:=⟨fun _=>none,fun _=>""⟩

/-- The exact name, the service and the empty name have policies of their own. -/
theorem orders_policy_found :
  parseMethodConfigs noNumbers (methodConfigs ordersEntries)=.ok ordersConfigs ∧
  ∀found∈[("/shop.Orders/Get",4),("/shop.Orders/List",3),("/shop.Carts/Get",2)],
   (retryPolicyFor ordersConfigs found.1).map RetryPolicy.maxAttempts=some found.2 ∧
   ∃configs,parseMethodConfigs noNumbers (methodConfigs swappedEntries)=.ok configs ∧
    retryPolicyFor configs found.1=retryPolicyFor ordersConfigs found.1 := by
 refine ⟨rfl,fun found hf=>?_⟩
 have h:=policy_most_specific noNumbers (methodConfigs ordersEntries) ordersConfigs rfl found.1
 refine ⟨?_,h.2.2 _ entries_swapped⟩
 rw [h.1]
 clear h
 revert found
 decide +kernel
end

def isSafeRetryMethod (method:String) : Bool:=method.toUpper∈["GET","HEAD"]

/-- How a request ends. The code of an error response is that of `_http_error`, which is never OK. -/
inductive Outcome where
 | timeout
 | requestError
 | response (code:{c:Code // c≠.ok}) (retryAfter:Option String)
 | ended

/-- What a call meets: the ends of its requests, the random numbers, and what `int` and the dates of
  the header are at each attempt; a date without a time zone is `some none`. -/
structure World where
 outcomes : ℕ → Outcome
 jitter : ℕ → ℚ
 jitter_bounds : ∀n,0≤jitter n ∧ jitter n≤1
 int : String → Option ℤ
 remaining : ℕ → String → Option (Option ℚ)

def parseRetryAfterSeconds (w:World) (attempt:ℕ) : Option String → Option ℚ
 | none=>none
 | some value=>
  if strip value="" then none
  else match w.int (strip value) with
   | some seconds=>some (max 0 (seconds:ℚ))
   | none=>(w.remaining attempt (strip value)).map fun left=>max 0 (left.getD 0)

def shouldRetry (policy:Option RetryPolicy) (method:String) (attempt:ℕ) (code:Code) : Bool :=
 match policy with
 | none=>false
 | some p=>
  if p.maxAttempts≤attempt+1 then false
  else if isSafeRetryMethod method=false ∧ p.retryUnsafeMethods=false then false
  else code∈p.retryableStatusCodes

def retryDelaySeconds (policy:Option RetryPolicy) (jitter current:ℚ) : Option ℚ → Option (ℚ×ℚ)
 | some parsed=>
  match policy with
  | none=>some (parsed,0)
  | some p=>if p.maxBackoff<parsed then none else some (parsed,p.initialBackoff)
 | none=>
  match policy with
  | none=>some (0,0)
  | some p=>some (jitter*current,min p.maxBackoff (current*p.backoffMultiplier))

def Outcome.failure : Outcome → Option (Code×Option String)
 | .timeout=>some (.deadlineExceeded,none)
 | .requestError=>some (.unavailable,none)
 | .response code retryAfter=>some (code.1,retryAfter)
 | .ended=>none

variable {attempt:ℕ}
lemma shouldRetry_eq_true {policy:Option RetryPolicy} {method:String} {code:Code} :
 shouldRetry policy method attempt code=true ↔ ∃p,policy=some p ∧ attempt+1<p.maxAttempts ∧
  (isSafeRetryMethod method=true ∨ p.retryUnsafeMethods=true) ∧ code∈p.retryableStatusCodes := by
 cases policy with
 | none=>simp [shouldRetry]
 | some p=>
  simp only [shouldRetry,Option.some.injEq,exists_eq_left']
  split_ifs with hm hmethod
  · have hn:¬ (attempt+1 : ℤ)<p.maxAttempts:=Int.not_lt.2 hm
    simp [hn]
  · simp [hmethod]
  · have hlt:(attempt+1 : ℤ)<p.maxAttempts:=Int.not_le.1 hm
    have ha:isSafeRetryMethod method=true ∨ p.retryUnsafeMethods=true:=by
     by_contra hneither
     simp only [not_or,Bool.not_eq_true] at hneither
     exact hmethod hneither
    simp [hlt,ha]

def callFrom (policy:Option RetryPolicy) (method:String) (w:World) (attempt:ℕ) (backoff:ℚ) : ℕ×List ℚ :=
 match (w.outcomes attempt).failure with
 | none=>(1,[])
 | some (code,retryAfter)=>
  if _h : shouldRetry policy method attempt code=true then
   match retryDelaySeconds policy (w.jitter attempt) backoff (parseRetryAfterSeconds w attempt retryAfter) with
   | none=>(1,[])
   | some (delay,next)=>
    let rest:=callFrom policy method w (attempt+1) next
    (rest.1+1,delay::rest.2)
  else (1,[])
termination_by ((policy.elim 0 RetryPolicy.maxAttempts)-attempt).toNat
decreasing_by
 obtain ⟨p,rfl,hlt,-⟩:=shouldRetry_eq_true.1 _h
 simp only [Option.elim]
 omega

def call (policy:Option RetryPolicy) (method:String) (w:World) : ℕ×List ℚ :=
 callFrom policy method w 0 (policy.elim 0 RetryPolicy.initialBackoff)

variable {p:RetryPolicy} {method:String} {w:World} {value:Option String}
lemma parseRetryAfterSeconds_nonneg {q:ℚ} (h:parseRetryAfterSeconds w attempt value=some q) : 0≤q := by
 unfold parseRetryAfterSeconds at h
 split at h
 · cases h
 · split_ifs at h
   split at h
   · cases h
     exact le_max_left _ _
   · obtain ⟨left,-,rfl⟩:=Option.map_eq_some_iff.1 h
     exact le_max_left _ _

/-- A delay stays within the maximal backoff, and so does the next backoff. -/
theorem retryDelay_bounds (hi:p.initialBackoff≤p.maxBackoff) {current:ℚ}
 (hc:0≤current ∧ current≤p.maxBackoff) {delay next:ℚ}
 (h:retryDelaySeconds (some p) (w.jitter attempt) current (parseRetryAfterSeconds w attempt value)=some (delay,next)) :
 (0≤delay ∧ delay≤p.maxBackoff) ∧ 0≤next ∧ next≤p.maxBackoff := by
 obtain ⟨hp,hmx,hm⟩:=p.backoffs_nonneg
 obtain ⟨hj,ho⟩:=w.jitter_bounds attempt
 cases hvalue : parseRetryAfterSeconds w attempt value with
 | some parsed=>
  rw [hvalue] at h
  simp only [retryDelaySeconds] at h
  split_ifs at h with hl
  cases h
  exact ⟨⟨parseRetryAfterSeconds_nonneg hvalue,not_lt.1 hl⟩,hp,hi⟩
 | none=>
  rw [hvalue] at h
  cases h
  exact ⟨⟨mul_nonneg hj hc.1,(mul_le_of_le_one_left hc.1 ho).trans hc.2⟩,
   le_min hmx (mul_nonneg hc.1 hm.le),min_le_left _ _⟩

/-- A call with this method can be retried. -/
def Retryable (p:RetryPolicy) (method:String) : Prop :=
 (isSafeRetryMethod method=true ∨ p.retryUnsafeMethods=true) ∧ ∃code∈p.retryableStatusCodes,code≠.ok

lemma Outcome.failure_ne_ok {o:Outcome} {code:Code} (h:o.failure=some (code,value)) :
 code≠.ok := by
 cases o with
 | response c after=>
  cases h
  exact c.2
 | ended=>cases h
 | _=>
  cases h
  decide

/-- What holds of the last request, and is kept by a retry, holds of the call. -/
theorem callFrom_induction {P:ℕ → ℚ → ℕ×List ℚ → Prop} (last:∀attempt backoff,P attempt backoff (1,[]))
 (retry:∀(attempt:ℕ) backoff delay next rest value,attempt+1<p.maxAttempts → Retryable p method →
  retryDelaySeconds (some p) (w.jitter attempt) backoff (parseRetryAfterSeconds w attempt value)=some (delay,next) →
  P (attempt+1) next rest → P attempt backoff (rest.1+1,delay::rest.2))
 (attempt:ℕ) (backoff:ℚ) : P attempt backoff (callFrom (some p) method w attempt backoff) := by
 fun_induction callFrom (some p) method w attempt backoff with
 | case1 attempt backoff hf=>exact last attempt backoff
 | case2 attempt backoff code retryAfter hf hr hd=>exact last attempt backoff
 | case3 attempt backoff code retryAfter hf hr delay next hd rest ih=>
  obtain ⟨_,⟨⟩,hlt,hmethod,hc⟩:=shouldRetry_eq_true.1 hr
  exact retry attempt backoff delay next _ retryAfter hlt
   ⟨hmethod,code,hc,Outcome.failure_ne_ok hf⟩ hd ih
 | case4 attempt backoff code retryAfter hf hr=>exact last attempt backoff

/-- The limits of a policy on the requests and the sleeps of a call; without one there is no retry. -/
def Respects (method:String) (run:ℕ×List ℚ) : Option RetryPolicy → Prop
 | none=>run=(1,[])
 | some p=>run.1≤p.maxAttempts ∧
  (isSafeRetryMethod method=false → p.retryUnsafeMethods=false → run.1≤1) ∧
  ∀delay∈run.2,0≤delay ∧ delay≤p.maxBackoff

lemma callFrom_requests (attempt:ℕ) (backoff:ℚ) :
 ((callFrom (some p) method w attempt backoff).1 : ℤ) ≤ max 1 (p.maxAttempts-attempt) := by
 refine callFrom_induction (P := fun attempt _ run=>(run.1 : ℤ) ≤ max 1 (p.maxAttempts-attempt)) ?_ ?_ attempt backoff
 · intro attempt backoff
   exact le_max_left _ _
 · intro attempt backoff delay next rest value hlt _ _ ih
   simp only [Nat.cast_add,Nat.cast_one] at ih ⊢
   omega

lemma callFrom_once (hn:¬ Retryable p method) (attempt:ℕ) (backoff:ℚ) :
 callFrom (some p) method w attempt backoff=(1,[]) := by
 refine callFrom_induction (P := fun _ _ run=>run=(1,[])) (fun _ _=>rfl) ?_ attempt backoff
 intro attempt backoff delay next rest value _ hr
 exact absurd hr hn

lemma callFrom_sleeps (hi:p.initialBackoff≤p.maxBackoff) (attempt:ℕ) {backoff:ℚ}
 (hb:0≤backoff ∧ backoff≤p.maxBackoff) :
 ∀delay∈(callFrom (some p) method w attempt backoff).2,0≤delay ∧ delay≤p.maxBackoff := by
 revert hb
 refine callFrom_induction (P := fun _ backoff run=>0≤backoff ∧ backoff≤p.maxBackoff →
  ∀delay∈run.2,0≤delay ∧ delay≤p.maxBackoff) ?_ ?_ attempt backoff
 · simp
 · intro attempt backoff delay next rest value _ _ hd ih hb
   obtain ⟨ho,hn⟩:=retryDelay_bounds hi hb hd
   exact forall_mem_cons.2 ⟨ho,ih hn⟩

/-- Every request is answered with the code, and the random numbers are the largest. -/
def failing (code:{c:Code // c≠.ok}) : World :=
 ⟨fun _=>.response code none,fun _=>1,fun _=>⟨by decide,by decide⟩,fun _=>none,fun _ _=>none⟩

/-- The first sleep can be the initial backoff, whatever the maximal one is. -/
theorem initial_slept {code:{c:Code // c≠.ok}} (hc:code.1∈p.retryableStatusCodes)
 (hmethod:isSafeRetryMethod method=true ∨ p.retryUnsafeMethods=true) :
 p.initialBackoff∈(call (some p) method (failing code)).2 := by
 have ha:((0:ℕ) : ℤ)+1<p.maxAttempts:=p.attempts_limited.1
 have hr:shouldRetry (some p) method 0 code.1=true:=
  shouldRetry_eq_true.2 ⟨p,rfl,ha,hmethod,hc⟩
 rw [call,callFrom]
 simp [failing,Outcome.failure,hr,parseRetryAfterSeconds,retryDelaySeconds]

lemma none_called (method:String) (w:World) : call none method w=(1,[]) := by
 rw [call,callFrom]
 cases (w.outcomes 0).failure with
 | none=>rfl
 | some failure=>simp [shouldRetry]

lemma respects_iff (policy:Option RetryPolicy) (method:String) :
 (∀w,Respects method (call policy method w) policy) ↔
  ∀p,policy=some p → Retryable p method → p.initialBackoff≤p.maxBackoff := by
 cases policy with
 | none=>simp [Respects,none_called]
 | some p=>
  constructor
  · rintro hal _ ⟨⟩ ⟨hmethod,code,hc,hne⟩
    exact ((hal (failing ⟨code,hne⟩)).2.2 _ (initial_slept hc hmethod)).2
  · intro hl w
    have hrq:((call (some p) method w).1 : ℤ) ≤ max 1 (p.maxAttempts-(0:ℕ)):=callFrom_requests 0 _
    have ha:=p.attempts_limited.1
    refine ⟨by omega,fun hs hp=>?_,?_⟩
    · have hn:¬ Retryable p method:=by simp [Retryable,hs,hp]
      rw [call,callFrom_once hn]
    · by_cases hr : Retryable p method
      · have hi:=hl p rfl hr
        exact callFrom_sleeps hi 0 ⟨p.backoffs_nonneg.1,hi⟩
      · rw [call,callFrom_once hr]
        nofun

lemma policy_found {configs:List MethodConfig} {methodPath:String}
 (h:retryPolicyFor configs methodPath=some p) : ∃config∈configs,config.retryPolicy=some p := by
 rw [retryPolicyFor_eq] at h
 obtain ⟨-,-,hs|⟨⟨name,policy⟩,hm,-,-,hp⟩⟩:=
  @better_foldl (splitMethodPath methodPath).1 (splitMethodPath methodPath).2 (named configs) (-1,none)
 · rw [hs] at h
   cases h
 · simp only [named,mem_flatMap,mem_map,Prod.mk.injEq] at hm
   obtain ⟨config,hc,_,-,-,rfl⟩:=hm
   exact ⟨config,hc,hp.trans h⟩

/-- The policy is that of a method config with this `max_attempts`. -/
def Configured (lib:Library) (serviceConfig:PyValue) (p:RetryPolicy) (n:ℤ) : Prop :=
 ∃dict raws entry raw unsafeMethods,serviceConfig=.dict dict ∧ field dict "method_config" "methodConfig"=.list raws ∧
  .dict entry∈raws ∧ field entry "retry_policy" "retryPolicy"=.dict raw ∧
  parsePolicy lib unsafeMethods raw=.ok p ∧ field raw "max_attempts" "maxAttempts"=.int n

lemma parseMaxAttempts_ok {value:PyValue} {m:{n:ℤ // 1<n ∧ n≤5}} (h:parseMaxAttempts value=.ok m) :
 ∃n,value=.int n ∧ m.1=min n 5 := by
 cases value with
 | int n=>
  simp only [parseMaxAttempts] at h
  split_ifs at h
  · cases h
  · cases h
    exact ⟨n,rfl,rfl⟩
 | _=>cases h

variable {unsafeMethods:Option Bool}
lemma parsePolicy_attempts {lib:Library} {raw:Dict} (h:parsePolicy lib unsafeMethods raw=.ok p) :
 ∃n,field raw "max_attempts" "maxAttempts"=.int n ∧ p.maxAttempts=min n 5 := by
 unfold parsePolicy at h
 split at h
 · simp only [bind_ok,pure_ok] at h
   obtain ⟨codes,-,m,ha,initial,-,maximal,-,multiplier,-,inner,-,rfl⟩:=h
   exact parseMaxAttempts_ok ha
 · cases h

lemma parseRetryPolicy_some {lib:Library} {entry:Dict}
 (h:parseRetryPolicy lib entry unsafeMethods=.ok (some p)) :
 ∃raw,field entry "retry_policy" "retryPolicy"=.dict raw ∧ parsePolicy lib unsafeMethods raw=.ok p := by
 unfold parseRetryPolicy at h
 split at h
 · cases h
 · rename_i raw hr
   rw [mapError_ok] at h
   cases hp : parsePolicy lib unsafeMethods raw with
   | error err=>
    rw [hp] at h
    cases h
   | ok q=>
    rw [hp] at h
    cases h
    exact ⟨raw,hr,hp⟩
 · cases h

/-- The sleeps of a call stay within the maximal backoff exactly if the initial one does, or no retry
  is possible; its requests are limited in any case. -/
theorem retries_respect_config_iff (lib:Library) (serviceConfig:PyValue) (configs:List MethodConfig)
  (h:parseMethodConfigs lib serviceConfig=.ok configs) (methodPath method:String) :
  (∀p,retryPolicyFor configs methodPath=some p → ∃n,Configured lib serviceConfig p n ∧ p.maxAttempts=min n 5) ∧
  ((∀w,Respects method (call (retryPolicyFor configs methodPath) method w) (retryPolicyFor configs methodPath)) ↔
   ∀p,retryPolicyFor configs methodPath=some p → Retryable p method → p.initialBackoff≤p.maxBackoff) := by
 refine ⟨fun p hp=>?_,respects_iff _ method⟩
 obtain ⟨config,hc,hpl⟩:=policy_found hp
 rcases accepted_entries h with rfl|⟨dict,raws,rfl,hf,hen,-⟩
 · cases hc
 obtain ⟨_,hm,entry,names,unsafeMethods,rfl,-,-,-,-,hpr⟩:=forall₂_mem_right hen hc
 rw [hpl] at hpr
 obtain ⟨raw,hr,hpr⟩:=parseRetryPolicy_some hpr
 obtain ⟨n,hn,hmn⟩:=parsePolicy_attempts hpr
 exact ⟨n,⟨dict,raws,entry,raw,unsafeMethods,rfl,hf,hm,hr,hpr,hn⟩,hmn⟩

/-- The first sleep may be five seconds long although one second is the maximum. -/
def slowConfig : PyValue := methodConfigs [retryEntry 3 5 [[]]]

def slowPolicy : RetryPolicy:=retryOf 3 5 (by decide) (by decide)

def steadyPolicy : RetryPolicy:=retryOf 3 1 (by decide) (by decide)

def slowConfigs : List MethodConfig:=[⟨[("","")],some slowPolicy⟩]

def steadyConfigs : List MethodConfig:=[⟨[("","")],some steadyPolicy⟩]

/-- No retry is possible with the slow policy, and the steady one keeps its sleeps short. -/
theorem slow_post_and_get_respect :
  (parseMethodConfigs noNumbers slowConfig=.ok slowConfigs ∧
   ∀w,Respects "POST" (call (retryPolicyFor slowConfigs "/shop.Orders/Get") "POST" w)
    (retryPolicyFor slowConfigs "/shop.Orders/Get")) ∧
  parseMethodConfigs noNumbers (methodConfigs [retryEntry 3 1 [[]]])=.ok steadyConfigs ∧
  retryPolicyFor steadyConfigs "/shop.Orders/Get"=some steadyPolicy ∧ Retryable steadyPolicy "GET" ∧
  ∀w,Respects "GET" (call (some steadyPolicy) "GET" w) (some steadyPolicy) := by
 have hp:retryPolicyFor steadyConfigs "/shop.Orders/Get"=some steadyPolicy:=(retryPolicyFor_eq _ _).trans rfl
 refine ⟨⟨rfl,(retries_respect_config_iff noNumbers slowConfig slowConfigs rfl _ _).2.2 ?_⟩,rfl,hp,
  ⟨.inl (by decide +kernel),.unavailable,by decide,by decide⟩,?_⟩
 · rw [retryPolicyFor_eq]
   rintro _ ⟨⟩ ⟨hmethod,-⟩
   exact absurd hmethod (by decide +kernel)
 · have h:=(retries_respect_config_iff noNumbers (methodConfigs [retryEntry 3 1 [[]]])
    steadyConfigs rfl "/shop.Orders/Get" "GET").2
   rw [hp] at h
   refine h.2 ?_
   rintro _ ⟨⟩ -
   decide

theorem slow_sleep_too_long :
  parseMethodConfigs noNumbers slowConfig=.ok slowConfigs ∧
  retryPolicyFor slowConfigs "/shop.Orders/Get"=some slowPolicy ∧
  5∈(call (some slowPolicy) "GET" (failing ⟨.unavailable,by decide⟩)).2 ∧ slowPolicy.maxBackoff=1 :=
 ⟨rfl,(retryPolicyFor_eq _ _).trans rfl,initial_slept (by decide) (.inl (by decide +kernel)),rfl⟩
end InvariantProtocol.PythonRetries
