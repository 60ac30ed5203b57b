import InvariantProtocol.DotSegments
import InvariantProtocol.PathTemplates
import InvariantProtocol.TypeScriptClient
/-! The endpoint that a request of the Python and the TypeScript client reaches once the HTTP stack has
normalised its URL. -/
namespace InvariantProtocol.ClientEndpoints
open ListRelations GoResult PercentEncoding HttpClient PathTemplates DotSegments
open TypeScriptClient (withoutSlash joinParts Binding Built keepComponent property_member build_ok)
open List hiding below mapM_map tail

def question : UInt8:=63

def hash : UInt8:=35

/-- The path of a URL ends at the first `?` or `#`. -/
def pathByte (b:UInt8) : Bool:=b≠question ∧ b≠hash

def urlPath (origin url:Bytes) : Bytes:=(url.drop origin.length).takeWhile pathByte

def pathSegments (path:Bytes) : List Bytes:=if path=[] then [] else path.tail.splitOn slash

/-- A segment that is one of the spellings of `.` or of `..`. -/
def dotKind (single double:List Bytes) (s:Bytes) : DotKind :=
 if s∈single then .here else if s∈double then .up else .plain

/-- Where a dot segment ends the path, RFC 3986 leaves an empty segment and `httpx` none. -/
def dotRemoval (closing:Option Bytes) : Normalizer Bytes where
 kind:=dotKind [text "."] [text ".."]
 closing:=closing

/-- The `URL` constructor takes `%2e` for a dot as well. That it reads a backslash as a slash, drops tabs
  and newlines and encodes literals is left out. -/
def whatwg : Normalizer Bytes where
 kind:=dotKind [text ".",text "%2e",text "%2E"]
  [text "..",text ".%2e",text ".%2E",text "%2e.",text "%2E.",text "%2e%2e",text "%2e%2E",
   text "%2E%2e",text "%2E%2E"]
 closing:=some []

/-- The bytes a client leaves alone in a path value, with the normaliser its URLs go through. -/
structure UrlEncoder where
 keep : UInt8 → Bool
 normalizer : Normalizer Bytes
 keep_percent : keep percent=false
 keep_slash : keep slash=false
 keep_question : keep question=false
 keep_hash : keep hash=false
 closing_nil : ∀s,normalizer.closing=some s → s=[]
 kind_nil : normalizer.kind []=.plain
 kind_escape : ∀v,normalizer.kind (escape keep v)=.plain ↔ v≠text "." ∧ v≠text ".."

def keepQuote (b:UInt8) : Bool :=
 (97≤b && b≤122) || (65≤b && b≤90) || (48≤b && b≤57) || b∈text "_.-~"

lemma dotKind_plain_iff {single double:List Bytes} {s:Bytes} :
 dotKind single double s=.plain ↔ s∉single++double := by
 unfold dotKind
 split_ifs <;> simp_all

/-- An encoded value is a dot segment only if the value is one: no encoder writes `%2e`. -/
theorem dotKind_escape {keep:UInt8 → Bool} (hp:keep percent=false) (hdo:keep dot=true)
 {single double:List Bytes} (ho:text "." ∈ single) (ht:text ".." ∈ double)
 (hdt:∀s∈single++double,unescape s=some (text ".") ∨ unescape s=some (text ".."))
 (v:Bytes) : dotKind single double (escape keep v)=.plain ↔ v≠text "." ∧ v≠text ".." := by
 have hs:∀n,escape keep (replicate n dot)=replicate n dot:=by
  intro n
  apply escape_eq_self.mpr
  intro b hb
  rw [eq_of_mem_replicate hb,hdo]
 rw [dotKind_plain_iff,←not_or]
 apply not_congr
 constructor
 · intro hm
   have hv:=unescape_escape hp v
   rcases hdt _ hm with hd|hd
   · exact .inl (Option.some.inj (hv.symm.trans hd))
   · exact .inr (Option.some.inj (hv.symm.trans hd))
 · rintro (rfl|rfl)
   · rw [show text "." = replicate 1 dot from rfl,hs]
     exact mem_append_left _ ho
   · rw [show text ".." = replicate 2 dot from rfl,hs]
     exact mem_append_right _ ht

def pythonEncoder (closing:Option Bytes) (hclosing:∀s,closing=some s → s=[]) : UrlEncoder where
 keep:=keepQuote
 normalizer:=dotRemoval closing
 keep_percent := by decide
 keep_slash := by decide
 keep_question := by decide
 keep_hash := by decide
 closing_nil:=hclosing
 kind_nil:=(by decide:dotKind [text "."] [text ".."] []=.plain)
 kind_escape:=dotKind_escape (by decide) (by decide) (by decide) (by decide) (by decide)

def typescriptEncoder : UrlEncoder where
 keep:=keepComponent
 normalizer:=whatwg
 keep_percent := by decide
 keep_slash := by decide
 keep_question := by decide
 keep_hash := by decide
 closing_nil := by simp [whatwg]
 kind_nil := by decide
 kind_escape:=dotKind_escape (by decide) (by decide) (by decide) (by decide) (by decide)

section
variable (e:UrlEncoder) (value:PathSegment → Option Bytes)
def writtenPart (s:PathSegment) : Bytes :=
 match value s with
 | none=>s.literal
 | some v=>escape e.keep v

def writtenSegments (template:PathTemplate) : List PathSegment :=
 (if template.segments=[] then [⟨[],[],false⟩] else template.segments) ++
  if template.trailingSlash then [⟨[],[],false⟩] else []

def SegmentKept (s:PathSegment) (part:Bytes) : Prop :=
 match value s with
 | none=>part=s.literal
 | some v=>unescape part=some v

/-- The normalised path goes on below the base path with the segments of the template. -/
def EndpointKept (origin basePath:Bytes) (template:PathTemplate) (url:Bytes) : Prop :=
 ∃rest,e.normalizer.normalize (pathSegments (urlPath origin url)) =
   e.normalizer.stack [] (pathSegments basePath)++rest ∧
  Forall₂ (SegmentKept value) (writtenSegments template) rest

def SegmentSafe (s:PathSegment) : Prop :=
 match value s with
 | none=>e.normalizer.kind s.literal=.plain ∧ ∀b∈s.literal,pathByte b=true
 | some v=>v≠text "." ∧ v≠text ".."

variable {e value}
lemma bytes_of_escape (v:Bytes) : ∀b∈escape e.keep v,pathByte b=true := by
 intro b hb
 have hq:question∉escape e.keep v:=
  not_mem_escape e.keep_question (by decide) (by decide) v
 have hh:hash∉escape e.keep v:=not_mem_escape e.keep_hash (by decide) (by decide) v
 simp only [pathByte,decide_eq_true_eq]
 exact ⟨fun heq=>hq (heq ▸ hb),fun heq=>hh (heq ▸ hb)⟩

lemma segmentSafe_iff (s:PathSegment) : SegmentSafe e value s ↔
 e.normalizer.kind (writtenPart e value s)=.plain ∧ ∀b∈writtenPart e value s,pathByte b=true := by
 unfold SegmentSafe writtenPart
 cases value s with
 | none=>rfl
 | some v=>
  dsimp only
  rw [e.kind_escape,and_iff_left (bytes_of_escape v)]

/-- An empty segment stands only for what was written empty, so not for a dot segment. -/
theorem segmentKept_nil {s:PathSegment} (h:SegmentKept value s []) : writtenPart e value s=[] := by
 unfold SegmentKept at h
 unfold writtenPart
 cases hvalue : value s with
 | none=>
  rw [hvalue] at h
  exact h.symm
 | some v=>
  rw [hvalue] at h
  have hv:v=[]:=(Option.some.inj h).symm
  rw [hv]
  rfl

lemma segmentKept_written (s:PathSegment) : SegmentKept value s (writtenPart e value s) := by
 unfold SegmentKept writtenPart
 cases value s with
 | none=>rfl
 | some v=>exact unescape_escape e.keep_percent v

lemma writtenSegments_ne_nil (template:PathTemplate) : writtenSegments template≠[] := by
 unfold writtenSegments
 split_ifs <;> simp_all

lemma forall_writtenSegments {P:PathSegment → Prop} (hem:P ⟨[],[],false⟩) (template:PathTemplate) :
 (∀s∈writtenSegments template,P s) ↔ ∀s∈template.segments,P s := by
 unfold writtenSegments
 split_ifs with hs <;> grind

lemma pathSegments_append {basePath:Bytes} (hr:basePath≠[] → basePath.head?=some slash) (below:Bytes) :
 pathSegments (basePath++slash::below)=pathSegments basePath++below.splitOn slash := by
 unfold pathSegments
 cases basePath with
 | nil=>simp
 | cons b rest=>simp [splitOn_append_cons_self]

/-- What the stack makes of a URL: it cuts the endpoint off at a delimiter and normalises the rest. -/
theorem segments_of_url {origin basePath below tail:Bytes}
 (hr:basePath≠[] → basePath.head?=some slash) (hb:∀b∈basePath,pathByte b=true) :
 pathSegments (urlPath origin (origin++basePath++slash::below++tail)) =
  pathSegments basePath++((below++tail).takeWhile pathByte).splitOn slash := by
 have hp:urlPath origin (origin++basePath++slash::below++tail) =
   basePath++slash::(below++tail).takeWhile pathByte:=by
  rw [urlPath,append_assoc,append_assoc,drop_left,
   takeWhile_append_of_forall hb,cons_append,takeWhile_cons_of_pos (by decide)]
 rw [hp,pathSegments_append hr]

variable {segments:List PathSegment}
lemma last_kept {rest:List Bytes} {part:Bytes}
 (hk:Forall₂ (SegmentKept value) segments rest) (hl:rest.getLast?=some part) :
 ∃s,(segments.map (writtenPart e value)).getLast?=some (writtenPart e value s) ∧
  SegmentKept value s part := by
 obtain ⟨s,hs,hp⟩:=forall₂_getLast? hk hl
 exact ⟨s,by rw [List.getLast?_map,hs];rfl,hp⟩

lemma last_closing {rest:List Bytes} (hne:segments≠[])
 (hk:Forall₂ (SegmentKept value) segments rest) (hl:rest.getLast?=e.normalizer.closing) :
 (segments.map (writtenPart e value)).getLast?=some [] := by
 cases hc : e.normalizer.closing with
 | none=>
  rw [hc,List.getLast?_eq_none_iff] at hl
  have hln:=hk.length_eq
  rw [hl,length_nil,length_eq_zero_iff] at hln
  exact absurd hln hne
 | some closing=>
  rw [hc,e.closing_nil closing hc] at hl
  obtain ⟨s,hs,hnil⟩:=@last_kept e value _ _ _ hk hl
  rw [hs,segmentKept_nil hnil]

lemma not_kept_cut {s:PathSegment} (hc:(writtenPart e value s).takeWhile pathByte≠writtenPart e value s) :
 ¬SegmentKept value s ((writtenPart e value s).takeWhile pathByte) := by
 intro hk
 cases hvalue : value s with
 | none=>
  rw [SegmentKept,hvalue] at hk
  apply hc
  rw [hk,writtenPart,hvalue]
 | some v=>
  apply hc
  rw [takeWhile_eq_self_iff,writtenPart,hvalue]
  exact bytes_of_escape v

/-- The endpoint is kept exactly if no literal is a dot segment or ends the path, and no value of a
  variable is a dot segment. -/
theorem endpointKept_iff {template:PathTemplate} {origin basePath tail:Bytes}
 (hvalue:value ⟨[],[],false⟩=none) (hlt:∀s∈template.segments,slash∉s.literal)
 (hrt:basePath≠[] → basePath.head?=some slash) (hb:∀b∈basePath,pathByte b=true)
 (ht:tail.takeWhile pathByte=[]) : EndpointKept e value origin basePath template (origin++basePath ++
  slash::[slash].intercalate ((writtenSegments template).map (writtenPart e value))++tail) ↔
 ∀s∈template.segments,SegmentSafe e value s := by
 let parts:=(writtenSegments template).map (writtenPart e value)
 have hne:parts≠[]:=by simpa [parts] using writtenSegments_ne_nil template
 have hsl:∀part∈parts,slash∉part:=by
  have hsm:∀s∈writtenSegments template,slash∉writtenPart e value s:=by
   rw [forall_writtenSegments (by simp [writtenPart,hvalue])]
   intro s hs
   unfold writtenPart
   cases value s with
   | none=>exact hlt s hs
   | some v=>exact not_mem_escape e.keep_slash (by decide) (by decide) v
  intro part hpr
  obtain ⟨s,hs,rfl⟩:=List.mem_map.mp hpr
  exact hsm s hs
 have hsf:(∀s∈template.segments,SegmentSafe e value s) ↔
   ∀part∈parts,e.normalizer.kind part=.plain ∧ ∀b∈part,pathByte b=true:=by
  rw [←forall_writtenSegments (by simp [SegmentSafe,hvalue,e.kind_nil])]
  simp only [parts,forall_mem_map,segmentSafe_iff]
 rw [hsf,EndpointKept,segments_of_url hrt hb]
 have hcs:=@splitOn_takeWhile _ slash pathByte tail _ (by decide) ht parts hne hsl
 constructor
 · rintro ⟨rest,hr,hkp⟩
   have hl:rest.length=parts.length:=by rw [←hkp.length_eq,length_map]
   rcases hcs with ⟨hke,hsg⟩|⟨front,part,back,hpt,hct,hsg⟩
   · rw [hsg] at hr
     rcases plain_of_length hne hr hl with hp|⟨last,hls,hkn,hc⟩
     · exact fun part hpr=>⟨hp part hpr,hke part hpr⟩
     · rw [last_closing (writtenSegments_ne_nil template) hkp hc] at hls
       exact absurd e.kind_nil (Option.some.inj hls ▸ hkn)
   · -- The path was cut: it can only be long enough if the last segment was cut.
     exfalso
     rw [hsg] at hr
     have hle:=@length_normalize_le _ e.normalizer (pathSegments basePath)
      (front++[part.takeWhile pathByte]) (by simp)
     have hbc:back=[]:=by
      rw [hr,length_append,hl,hpt] at hle
      simp only [length_append,length_cons,length_nil] at hle
      exact List.length_eq_zero_iff.mp (by omega)
     subst hbc
     have hls:parts.getLast?=some part:=by rw [hpt,List.getLast?_concat]
     have hcn:rest.length=(front++[part.takeWhile pathByte]).length:=by
      rw [hl,hpt]
      simp
     rcases plain_of_length (by simp) hr hcn with hp|⟨_,-,-,hc⟩
     · have hen:rest.getLast?=some (part.takeWhile pathByte):=by
        rw [normalize_plain (by simp) hp] at hr
        rw [←append_cancel_left hr,List.getLast?_concat]
       obtain ⟨s,hs,hk⟩:=@last_kept e value _ _ _ hkp hen
       have hpr:part=writtenPart e value s:=Option.some.inj (hls.symm.trans hs)
       rw [hpr] at hct hk
       exact not_kept_cut hct hk
     · have hnil:=last_closing (writtenSegments_ne_nil template) hkp hc
       rw [Option.some.inj (hls.symm.trans hnil)] at hct
       exact hct rfl
 · intro hp
   rcases hcs with ⟨-,hsg⟩|⟨front,part,back,hpt,hct,-⟩
   · refine ⟨parts,?_,?_⟩
     · rw [hsg,normalize_plain hne fun part hpr=>(hp part hpr).1]
     · rw [forall₂_map_right_iff,forall₂_same]
       exact fun s _=>segmentKept_written s
   · have hm:part∈parts:=hpt ▸ mem_append_cons_self
     exact absurd (List.takeWhile_eq_self_iff.mpr (hp part hm).2) hct
end

section

structure ClientBase where
 origin : Bytes
 path : Bytes
 host : origin.getLast?≠some slash
 rooted : path≠[] → path.head?=some slash
 plain : ∀b∈path,pathByte b=true

def ClientBase.url (base:ClientBase) : Bytes:=base.origin++base.path

def trimEnd (b:UInt8) (bs:Bytes) : Bytes:=(bs.reverse.dropWhile (· = b)).reverse

/-- Python's `_scalar_to_string`. -/
def pythonScalar : Json → ClientResult Bytes
 | .bool b=>.ok (text (if b then "true" else "false"))
 | .number digits=>.ok digits
 | .string s=>.ok s
 | .null=>.error ⟨"expected scalar value, got NoneType",[]⟩
 | .array _=>.error ⟨"expected scalar value, got list",[]⟩
 | .object _ _=>.error ⟨"expected scalar value, got dict",[]⟩

/-- Python's `_encode_path_value`. -/
def pythonPathValue (v:Json) (multi:Bool) : ClientResult Bytes:=do
 let raw ← pythonScalar v
 if multi then return [slash].intercalate ((raw.splitOn slash).map (escape keepQuote))
 else return escape keepQuote raw

def pythonExpandSegment (args:Json) (s:PathSegment) : ClientResult Bytes :=
 if s.field=[] then .ok s.literal
 else match RequestSelectors.getNested args s.field with
  | none=>.error ⟨"missing path field \"%s\"",[s.field]⟩
  | some v=>pythonPathValue v s.multi

/-- Python's `_expand_path`. -/
def pythonExpandPath (template:PathTemplate) (args:Json) : ClientResult (Bytes×List Bytes) :=
 if template.segments=[] then .ok ([slash],[])
 else do
  let parts ← template.segments.mapM (pythonExpandSegment args)
  return (joinParts template parts,
   (template.segments.filter fun s=>s.field≠[]).map fun s=>s.field)

/-- The URL of Python's `build`, for the query it has encoded. -/
def pythonUrl (baseUrl path query:Bytes) : Bytes :=
 trimEnd slash baseUrl++path++if query=[] then [] else text "?"++query

/-- The string a variable of the template has in the request. -/
def pythonValue (args:Json) (s:PathSegment) : Option Bytes :=
 if s.field=[] then none
 else match RequestSelectors.getNested args s.field with
  | some (.string v)=>some v
  | _=>none

def typescriptValue (args:Json) (s:PathSegment) : Option Bytes :=
 if s.field=[] then none
 else match TypeScriptClient.getNested (.json args) s.field with
  | some (.json (.string v))=>some v
  | _=>none

/-- A parsed template whose selectors have been translated to JSON paths. -/
def resolvedTemplate (translate:Bytes → Bytes) (template:PathTemplate) : PathTemplate :=
 { template with
   segments:=template.segments.map fun s=>
    if s.field=[] then s else { s with field:=translate s.field } }

lemma intercalate_concat_nil {parts:List Bytes} (hne:parts≠[]) :
 [slash].intercalate (parts++[[]])=[slash].intercalate parts++[slash] := by
 induction parts with
 | nil=>exact absurd rfl hne
 | cons part rest ih=>
  cases rest with
  | nil=>simp [intercalate]
  | cons next rest=>
   have hr:=ih (by simp)
   rw [cons_append] at hr
   rw [cons_append,cons_append,intercalate_cons_cons,hr,intercalate_cons_cons,
    append_assoc,append_assoc,append_assoc]

lemma joinParts_eq {template:PathTemplate} {part:PathSegment → Bytes} (hem:part ⟨[],[],false⟩=[]) :
 joinParts template (template.segments.map part) =
  slash::[slash].intercalate ((writtenSegments template).map part) := by
 unfold joinParts writtenSegments
 by_cases hs : template.segments=[]
 · cases template.trailingSlash <;> simp [hs,hem,intercalate]
 · have hne:template.segments.map part≠[]:=by simpa using hs
   cases template.trailingSlash with
   | false=>simp [hs]
   | true=>simp [hs,hem,intercalate_concat_nil hne]

lemma resolved_forall {P:PathSegment → Prop} {translate:Bytes → Bytes} {template:PathTemplate}
 (hP:∀(s:PathSegment) (field:Bytes),P s → P { s with field }) (h:∀s∈template.segments,P s) :
 ∀s∈(resolvedTemplate translate template).segments,P s := by
 intro s hs
 obtain ⟨s',hs',rfl⟩:=List.mem_map.mp hs
 split_ifs
 · exact h s' hs'
 · exact hP s' _ (h s' hs')

lemma pythonParse_literal {pattern:Bytes} {template:PathTemplate} (h:pythonParse pattern=.ok template) :
 (template.segments=[] → template.trailingSlash=false) ∧
  ∀s∈template.segments,slash∉s.literal := by
 rcases parsePathTemplate_ok (pythonParse_iff.mp h) with ⟨-,rfl⟩|⟨hne,hsg⟩
 · simp
 · obtain ⟨hec,-⟩:=parseSegments_each hsg
   constructor
   · intro hnil
     rw [hnil,forall₂_nil_right_iff] at hec
     exact absurd hec (splitOn_ne_nil _ _)
   · intro s hs
     obtain ⟨raw,hr,last,hp⟩:=forall₂_mem_right hec hs
     rcases parseSegment_ok.mp hp with ⟨-,rfl⟩|⟨inner,-,-,⟨-,rfl⟩|⟨-,-,rfl⟩⟩
     · exact not_mem_of_mem_splitOn _ raw hr
     · simp
     · simp

lemma typescriptParse_literal (pattern:Bytes) : ∀s∈(typescriptParse pattern).segments,slash∉s.literal := by
 intro s hs
 obtain ⟨raw,hr,rfl⟩:=List.mem_map.mp hs
 unfold typescriptSegment
 cases matchVariable raw with
 | none=>exact not_mem_of_mem_splitOn _ raw (mem_of_mem_filter hr)
 | some found=>simp

variable {closing:Option Bytes}
lemma pythonExpandSegment_eq {hc:∀s,closing=some s → s=[]} {args:Json} {s:PathSegment} (hs:s.multi=false)
 (hst:s.field≠[] → ∃v,RequestSelectors.getNested args s.field=some (.string v)) :
 pythonExpandSegment args s =
  .ok (writtenPart (pythonEncoder closing hc) (pythonValue args) s) := by
 unfold pythonExpandSegment writtenPart pythonValue
 by_cases hf : s.field=[]
 · simp [hf]
 · obtain ⟨v,hv⟩:=hst hf
   simp only [hf,if_false,hv,hs]
   rfl

lemma typescriptExpandSegment_eq {args:Json} {s:PathSegment} (hs:s.multi=false)
 (hst:s.field≠[] → ∃v,TypeScriptClient.getNested (.json args) s.field=some (.json (.string v))) :
 TypeScriptClient.expandSegment (.json args) s =
  .ok (writtenPart typescriptEncoder (typescriptValue args) s) := by
 unfold TypeScriptClient.expandSegment writtenPart typescriptValue
 by_cases hf : s.field=[]
 · simp [hf]
 · obtain ⟨v,hv⟩:=hst hf
   simp only [hf,if_false,hv,hs]
   rfl

lemma trimEnd_front (b:UInt8) (bs:Bytes) : trimEnd b bs <+: bs := by
 rw [trimEnd,←reverse_suffix,reverse_reverse]
 exact dropWhile_suffix _

lemma withoutSlash_front (bs:Bytes) : withoutSlash bs <+: bs := by
 unfold withoutSlash
 split_ifs
 · exact dropLast_prefix bs
 · exact prefix_rfl

lemma trimEnd_url (base:ClientBase) : trimEnd slash base.url=base.origin++trimEnd slash base.path := by
 have ho:base.origin.reverse.dropWhile (· = slash)=base.origin.reverse:=by
  have hh:base.origin.reverse.head?≠some slash:=by
   rw [List.head?_reverse]
   exact base.host
  cases hr : base.origin.reverse with
  | nil=>rfl
  | cons b rest=>
   rw [hr] at hh
   rw [dropWhile_cons_of_neg (by simpa using hh)]
 unfold trimEnd ClientBase.url
 rw [reverse_append,dropWhile_append]
 split_ifs with hem
 · rw [List.isEmpty_iff] at hem
   rw [ho,hem,reverse_reverse]
   simp
 · simp

lemma withoutSlash_url (base:ClientBase) :
 withoutSlash base.url=base.origin++withoutSlash base.path := by
 unfold withoutSlash ClientBase.url
 by_cases hp : base.path=[]
 · simp [hp,base.host]
 · rw [List.getLast?_append_of_ne_nil _ hp]
   split_ifs
   · exact dropLast_append_of_ne_nil hp
   · rfl

lemma ClientBase.prefix_rooted (base:ClientBase) {front:Bytes} (h:front <+: base.path) :
 (front≠[] → front.head?=some slash) ∧ ∀b∈front,pathByte b=true := by
 obtain ⟨rest,hr⟩:=h
 constructor
 · intro hne
   have hrt:=base.rooted (by rw [←hr];simp [hne])
   rw [←hr,List.head?_append_of_ne_nil _ hne] at hrt
   exact hrt
 · intro b hb
   exact base.plain b (by rw [←hr];exact mem_append_left _ hb)

lemma query_takeWhile (query:Bytes) : (if query=[] then [] else text "?"++query).takeWhile pathByte=[] := by
 split_ifs
 · rfl
 · have hq:text "?" = [question]:=by decide
   rw [hq,singleton_append,takeWhile_cons_of_neg (by decide)]

variable {pattern:Bytes} {translate:Bytes → Bytes} {args:Json} {base:ClientBase}
lemma pythonEndpoint_iff {parsed:PathTemplate}
 (hc:∀s,closing=some s → s=[]) (query:Bytes) (hp:pythonParse pattern=.ok parsed)
 (hsn:∀s∈parsed.segments,s.multi=false) (hst:∀s∈(resolvedTemplate translate parsed).segments,s.field≠[] →
  ∃v,RequestSelectors.getNested args s.field=some (.string v)) :
 ∃path consumed,pythonExpandPath (resolvedTemplate translate parsed) args=.ok (path,consumed) ∧
  (EndpointKept (pythonEncoder closing hc) (pythonValue args) base.origin
    (trimEnd slash base.path) (resolvedTemplate translate parsed) (pythonUrl base.url path query) ↔
   ∀s∈(resolvedTemplate translate parsed).segments,
    SegmentSafe (pythonEncoder closing hc) (pythonValue args) s) := by
 obtain ⟨hrt,hl⟩:=pythonParse_literal hp
 have hs':=@resolved_forall (fun s=>s.multi=false) translate _ (fun _ _ h=>h) hsn
 have hl':=@resolved_forall (fun s=>slash∉s.literal) translate _ (fun _ _ h=>h) hl
 let template:=resolvedTemplate translate parsed
 let part:=writtenPart (pythonEncoder closing hc) (pythonValue args)
 have hem:part ⟨[],[],false⟩=[]:=rfl
 have hex:∃consumed,pythonExpandPath template args =
   .ok (slash::[slash].intercalate ((writtenSegments template).map part),consumed):=by
  rw [←joinParts_eq hem,pythonExpandPath]
  by_cases hsg : template.segments=[]
  · have ht:template.trailingSlash=false:=hrt (by simpa [template,resolvedTemplate] using hsg)
    exact ⟨[],by simp [hsg,joinParts,ht]⟩
  · have hpr:template.segments.mapM (pythonExpandSegment args)=.ok (template.segments.map part):=
     mapM_map fun s hs=>pythonExpandSegment_eq (hs' s hs) (hst s hs)
    rw [if_neg hsg,hpr]
    exact ⟨_,rfl⟩
 obtain ⟨consumed,hex⟩:=hex
 refine ⟨_,consumed,hex,?_⟩
 obtain ⟨hr,hpl⟩:=base.prefix_rooted (trimEnd_front slash base.path)
 rw [pythonUrl,trimEnd_url]
 exact endpointKept_iff rfl hl' hr hpl (query_takeWhile query)

lemma typescriptEndpoint_iff {b:Binding} {built:Built}
 (ht:b.template=resolvedTemplate translate (typescriptParse pattern))
 (hsn:∀s∈(typescriptParse pattern).segments,s.multi=false) (hst:∀s∈b.template.segments,s.field≠[] →
  ∃v,TypeScriptClient.getNested (.json args) s.field=some (.json (.string v)))
 (hb:TypeScriptClient.build b args base.url=.ok built) :
 EndpointKept typescriptEncoder (typescriptValue args) base.origin
   (withoutSlash base.path) b.template built.location ↔
  ∀s∈b.template.segments,SegmentSafe typescriptEncoder (typescriptValue args) s := by
 have hs':=@resolved_forall (fun s=>s.multi=false) translate _ (fun _ _ h=>h) hsn
 have hl':=@resolved_forall (fun s=>slash∉s.literal) translate _ (fun _ _ h=>h)
  (typescriptParse_literal pattern)
 rw [←ht] at hs' hl'
 let part:=writtenPart typescriptEncoder (typescriptValue args)
 have hem:part ⟨[],[],false⟩=[]:=rfl
 obtain ⟨path,consumed,hex,-,hl⟩:=build_ok hb
 have hp:b.template.segments.mapM (TypeScriptClient.expandSegment (.json args)) =
   .ok (b.template.segments.map part):=
  mapM_map fun s hs=>typescriptExpandSegment_eq (hs' s hs) (hst s hs)
 have hpt:path=slash::[slash].intercalate ((writtenSegments b.template).map part):=by
  rw [TypeScriptClient.expand,hp] at hex
  rw [←joinParts_eq hem]
  exact (congrArg Prod.fst (Except.ok.inj hex)).symm
 obtain ⟨hr,hpl⟩:=base.prefix_rooted (withoutSlash_front base.path)
 have hk:=@endpointKept_iff typescriptEncoder (typescriptValue args) b.template base.origin _ []
  rfl hl' hr hpl rfl
 rw [hl,hpt,withoutSlash_url]
 simpa using hk

end

def userBase : ClientBase where
 origin:=text "http://h"
 path:=text "/api"
 host := by decide +kernel
 rooted := by decide
 plain := by decide +kernel

def userPattern : Bytes:=text "/v1/\x7bname\x7d"

def userTemplate : PathTemplate:={ segments:=[{ literal:=text "v1" },{ field:=text "name" }] }

def userArgs (name:Bytes) : Json:=.object [text "name"] [.string name]

lemma userPattern_parsed : pythonParse userPattern=.ok userTemplate ∧
 typescriptParse userPattern=userTemplate := by
 constructor
 · rfl
 · rfl

lemma userArgs_set (name:Bytes) : ∀s∈userTemplate.segments,s.field≠[] →
 RequestSelectors.getNested (userArgs name) s.field=some (.string name) ∧
 TypeScriptClient.getNested (.json (userArgs name)) s.field=some (.json (.string name)) := by
 have hp:(text "name").splitOn dot=[text "name"]:=by decide
 intro s hs hf
 simp only [userTemplate,mem_cons,not_mem_nil,or_false] at hs
 rcases hs with rfl|rfl
 · exact absurd rfl hf
 · have hm:(userArgs name).member (text "name")=some (.string name):=by
    simp [userArgs,Json.member]
   constructor
   · simp [RequestSelectors.getNested,hp,hm]
   · simp [TypeScriptClient.getNested,hp,property_member hm]

lemma userTemplate_safe {e:UrlEncoder} {value:PathSegment → Option Bytes} {name:Bytes}
 (hk:e.normalizer.kind (text "v1")=.plain) (hl:value { literal:=text "v1" }=none)
 (hn:value { field:=text "name" }=some name) (hd:name≠text "." ∧ name≠text "..") :
 ∀s∈userTemplate.segments,SegmentSafe e value s := by
 intro s hs
 simp only [userTemplate,mem_cons,not_mem_nil,or_false] at hs
 rcases hs with rfl|rfl
 · rw [SegmentSafe,hl]
   exact ⟨hk,by decide +kernel⟩
 · rw [SegmentSafe,hn]
   exact hd

end InvariantProtocol.ClientEndpoints
