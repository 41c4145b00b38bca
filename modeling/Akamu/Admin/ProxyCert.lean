import Akamu.Lib.QuotedSplit
import Akamu.Text
import Mathlib.Data.List.DropRight

/-!
# Client certificates forwarded by a proxy

`admin/auth/mtls.rs`: the certificate a TLS-terminating proxy reports in a
request header.  A client may send the header too; the proxy then adds its own
element, after a comma or as a further header line.
-/

namespace Akamu.ProxyCert

open List

/-! ## The parser -/

def trimStart (text : List Char) : List Char := text.dropWhile Text.isWhitespace

def trimEnd (text : List Char) : List Char := (text.reverse.dropWhile Text.isWhitespace).reverse

def trim (text : List Char) : List Char := trimEnd (trimStart text)

/-- `str::split_once`. -/
def splitOnce (sep : Char) : List Char → Option (List Char × List Char)
  | [] => none
  | c :: cs => if c = sep then some ([], cs) else (splitOnce sep cs).map fun p ↦ (c :: p.1, p.2)

def splitXfccElements (s : List Char) : List (List Char) := QuotedSplit.split '"' ',' s

def splitXfccPairs (s : List Char) : List (List Char) := QuotedSplit.split '"' ';' s

/-- Without its quotes, if there is one at either end. -/
def unquote (v : List Char) : List Char :=
  match v with
  | '"' :: s => if s.getLast? = some '"' then s.dropLast else v
  | _ => v

/-- The key is compared without regard to case. -/
def isCertKey (key : List Char) : Bool :=
  Text.eqIgnoreAsciiCase (String.ofList (trim key)) "Cert"

/-- The value of a pair whose key is `Cert`. -/
def certOfPair (pair : List Char) : Option (List Char) :=
  match splitOnce '=' (trim pair) with
  | some (key, value) => if isCertKey key then some (unquote (trim value)) else none
  | none => none

def parseXfccCert (headerValue : List Char) : Option (List Char) :=
  match (splitXfccElements headerValue).getLast? with
  | some lastElement => (splitXfccPairs lastElement).findSome? certOfPair
  | none => none

/-! ## The request -/

inductive ProxyHeaderFormat where
  | xSslClientCert
  | sslClientCert
  | xfcc
  deriving DecidableEq, Repr

def ProxyHeaderFormat.headerName : ProxyHeaderFormat → String
  | .xSslClientCert => "X-SSL-Client-Cert"
  | .sslClientCert => "SSL_CLIENT_CERT"
  | .xfcc => "X-Forwarded-Client-Cert"

variable {Ip : Type}

structure AdminProxyAuthConfig (Ip : Type) where
  trustedProxies : Ip → Bool
  headerFormat : ProxyHeaderFormat

structure Parts (Ip : Type) where
  connectInfo : Option Ip
  headers : List (String × List UInt8)

def Parts.lines (parts : Parts Ip) (name : String) : List (List UInt8) :=
  (parts.headers.filter fun h ↦ Text.eqIgnoreAsciiCase h.1 name).map Prod.snd

/-- `HeaderMap::get` returns the first of several lines. -/
def Parts.get (parts : Parts Ip) (name : String) : Option (List UInt8) :=
  (parts.headers.find? fun h ↦ Text.eqIgnoreAsciiCase h.1 name).map Prod.snd

def isVisibleAscii (b : UInt8) : Bool := (decide (32 ≤ b) && decide (b < 127)) || b == 9

/-- `HeaderValue::to_str`. -/
def toStr (value : List UInt8) : Option (List Char) :=
  if value.all isVisibleAscii then some (value.map Char.ofUInt8) else none

def maxProxyCertHeaderLen : ℕ := 64 * 1024

structure Decoders where
  percentDecodeUtf8 : List Char → Option (List Char)
  pemToDer : List Char → List (List UInt8)

def decodePem (lib : Decoders) (headerName : String) (pemValue : List Char) :
    Except String (Option (List UInt8)) :=
  match lib.percentDecodeUtf8 pemValue with
  | none => .error (headerName ++ ": URL-decoded value is not valid UTF-8")
  | some decoded =>
    match (lib.pemToDer decoded).head? with
    | none => .error (headerName ++ ": no PEM certificate found")
    | some der => .ok (some der)

def extractProxyCert (lib : Decoders) (parts : Parts Ip) (proxyCfg : AdminProxyAuthConfig Ip) :
    Except String (Option (List UInt8)) :=
  match parts.connectInfo with
  | none => .ok none
  | some ip =>
    if proxyCfg.trustedProxies ip then
      let headerName := proxyCfg.headerFormat.headerName
      match parts.get headerName with
      | none => .ok none
      | some hdr =>
        match toStr hdr with
        | none => .error (headerName ++ " header is not valid UTF-8")
        | some hdrStr =>
          if hdrStr.length > maxProxyCertHeaderLen then
            .error (headerName ++ " header exceeds size limit")
          else if proxyCfg.headerFormat = .xfcc then
            match parseXfccCert hdrStr with
            | some v => decodePem lib headerName v
            | none => .ok none
          else decodePem lib headerName hdrStr
    else .ok none

/-! ## The element of a proxy -/

inductive XfccValue where
  | raw (text : List Char)
  | quoted (text : List Char)

def XfccValue.render : XfccValue → List Char
  | .raw text => text
  | .quoted text => '"' :: text ++ ['"']

/-- White space around an unquoted value is no part of it. -/
def XfccValue.text : XfccValue → List Char
  | .raw text => trim text
  | .quoted text => text

/-- A quoted value may contain everything but a quote. -/
def XfccValue.Plain : XfccValue → Prop
  | .raw text => ∀ c ∈ text, c ≠ '"' ∧ c ≠ ',' ∧ c ≠ ';'
  | .quoted text => ∀ c ∈ text, c ≠ '"'

structure XfccPair where
  key : List Char
  value : XfccValue
  key_plain : ∀ c ∈ key, c ≠ '"' ∧ c ≠ ',' ∧ c ≠ ';' ∧ c ≠ '='
  value_plain : value.Plain

def XfccPair.render (p : XfccPair) : List Char := p.key ++ '=' :: p.value.render

structure XfccElement where
  pairs : List XfccPair
  nonempty : pairs ≠ []
  visible : ∀ p ∈ pairs, ∀ c ∈ p.render, 32 ≤ c.toNat ∧ c.toNat < 127 ∨ c = '\t'

namespace XfccElement

def render (e : XfccElement) : List Char := List.intercalate [';'] (e.pairs.map XfccPair.render)

def bytes (e : XfccElement) : List UInt8 := e.render.map Char.toUInt8

/-- The value of the `Cert` key. -/
def cert (e : XfccElement) : Option (List Char) :=
  (e.pairs.find? fun p ↦ isCertKey p.key).map fun p ↦ p.value.text

end XfccElement

/-- The certificate a `Cert` value stands for. -/
def decoded (lib : Decoders) : Option (List Char) → Except String (Option (List UInt8))
  | some v => decodePem lib ProxyHeaderFormat.xfcc.headerName v
  | none => .ok none

def XfccElement.named (lib : Decoders) (e : XfccElement) : Except String (Option (List UInt8)) :=
  decoded lib e.cert

inductive Arrives (e : XfccElement) : List (List UInt8) → List (List UInt8) → Prop where
  | suffixed (lines : List (List UInt8)) (last : List UInt8) :
      Arrives e (lines ++ [last]) (lines ++ [last ++ ','.toUInt8 :: e.bytes])
  | further (lines : List (List UInt8)) : Arrives e lines (lines ++ [e.bytes])

/-- By the format a line names the `Cert` value of its last element: of what
follows the last comma outside quotes. -/
def Names (line : List Char) (cert : Option (List Char)) : Prop :=
  ∃ elements element pairs, QuotedSplit.Cuts '"' ',' line elements ∧
    elements.getLast? = some element ∧ QuotedSplit.Cuts '"' ';' element pairs ∧
    pairs.findSome? certOfPair = cert

/-- The line is the proxy's element, or ends with it after a comma that no open
quote of the client hides. -/
def Closed (e : XfccElement) (line : List UInt8) : Prop :=
  line = e.bytes ∨
    ∃ text, line = text ++ ','.toUInt8 :: e.bytes ∧ Even (text.count '"'.toUInt8)

/-- The first line that arrives can be read.  Where the client decides what it
names, that is what the proxy's element names. -/
structure Undisturbed (lib : Decoders) (e : XfccElement) (line : List UInt8) : Prop where
  visible : line.all isVisibleAscii
  short : line.length ≤ maxProxyCertHeaderLen
  alike : ¬ Closed e line →
    ∃ cert, Names (line.map Char.ofUInt8) cert ∧ decoded lib cert = decoded lib e.cert

/-! ## White space -/

variable {c : Char}

theorem trimStart_append_cons (hc : Text.isWhitespace c = false) (before after : List Char) :
    trimStart (before ++ c :: after) = trimStart before ++ c :: after := by
  unfold trimStart
  induction before with
  | nil => simp [hc]
  | cons b before ih =>
    by_cases hb : Text.isWhitespace b
    · simp [hb, ih]
    · simp [hb]

theorem trimEnd_append_cons (hc : Text.isWhitespace c = false) (before after : List Char) :
    trimEnd (before ++ c :: after) = before ++ c :: trimEnd after := by
  have hrev := trimStart_append_cons hc after.reverse before.reverse
  unfold trimStart at hrev
  unfold trimEnd
  rw [reverse_append, reverse_cons, append_assoc, singleton_append, hrev]
  simp

theorem trimEnd_trimEnd (text : List Char) : trimEnd (trimEnd text) = trimEnd text := by
  simp [trimEnd, dropWhile_idempotent]

theorem trimStart_trimStart (text : List Char) : trimStart (trimStart text) = trimStart text := by
  simp [trimStart, dropWhile_idempotent]

theorem mem_of_mem_trim {text : List Char} (h : c ∈ trim text) : c ∈ text := by
  have hrev : c ∈ (trimStart text).reverse :=
    (dropWhile_sublist _).subset (mem_reverse.mp h)
  exact (dropWhile_sublist _).subset (mem_reverse.mp hrev)

theorem trim_trimStart (text : List Char) : trim (trimStart text) = trim text := by
  rw [trim, trimStart_trimStart, trim]

/-- A text is blank, or has a first character that is not white space. -/
theorem blank_or_split (text : List Char) :
    (trimStart text = [] ∧ trimEnd text = []) ∨
      ∃ before c after, text = before ++ c :: after ∧ Text.isWhitespace c = false ∧
        trimStart before = [] := by
  induction text with
  | nil => exact .inl ⟨rfl, rfl⟩
  | cons c text ih =>
    by_cases hc : Text.isWhitespace c
    · rcases ih with ⟨hstart, -⟩ | ⟨before, d, after, rfl, hd, hbefore⟩
      · have hall : ∀ d ∈ c :: text, Text.isWhitespace d :=
          forall_mem_cons.mpr ⟨hc, dropWhile_eq_nil_iff.mp hstart⟩
        refine .inl ⟨dropWhile_eq_nil_iff.mpr hall, ?_⟩
        rw [trimEnd, dropWhile_eq_nil_iff.mpr fun d hd ↦ hall d (mem_reverse.mp hd)]
        rfl
      · have hcons : trimStart (c :: before) = trimStart before := dropWhile_cons_of_pos hc
        exact .inr ⟨c :: before, d, after, rfl, hd, hcons.trans hbefore⟩
    · exact .inr ⟨[], c, text, rfl, by simpa using hc, rfl⟩

theorem trim_trimEnd (text : List Char) : trim (trimEnd text) = trim text := by
  rcases blank_or_split text with ⟨hstart, hend⟩ | ⟨before, c, after, rfl, hc, hbefore⟩
  · rw [trim, hend, trim, hstart]
    rfl
  · rw [trim, trim, trimEnd_append_cons hc, trimStart_append_cons hc, trimStart_append_cons hc,
      hbefore, trimEnd_append_cons hc, trimEnd_append_cons hc, trimEnd_trimEnd]

/-! ## One pair -/

theorem splitOnce_append {sep : Char} {before : List Char} (h : sep ∉ before) (after : List Char) :
    splitOnce sep (before ++ sep :: after) = some (before, after) := by
  induction before with
  | nil => simp [splitOnce]
  | cons c before ih =>
    have hc : c ≠ sep := fun heq ↦ h (heq ▸ mem_cons_self)
    have hbefore : sep ∉ before := fun hmem ↦ h (mem_cons_of_mem c hmem)
    simp [splitOnce, hc, ih hbefore]

theorem trim_quoted (text : List Char) : trim ('"' :: text ++ ['"']) = '"' :: text ++ ['"'] := by
  have hquote : Text.isWhitespace '"' = false := by decide
  have hend := trimEnd_append_cons hquote ('"' :: text) []
  exact hend

theorem unquote_trim_render {v : XfccValue} (h : v.Plain) : unquote (trim v.render) = v.text := by
  cases v with
  | raw text =>
    have hmem : ∀ c ∈ trim text, c ≠ '"' := fun c hc ↦ (h c (mem_of_mem_trim hc)).1
    unfold unquote
    split
    · rename_i s heq
      exact (hmem '"' (heq ▸ mem_cons_self) rfl).elim
    · rfl
  | quoted text =>
    change unquote (trim ('"' :: text ++ ['"'])) = text
    rw [trim_quoted]
    simp [unquote]

theorem certOfPair_render (p : XfccPair) :
    certOfPair p.render = if isCertKey p.key then some p.value.text else none := by
  have heq : Text.isWhitespace '=' = false := by decide
  have hkey : '=' ∉ trimStart p.key := fun hmem ↦
    (p.key_plain '=' ((dropWhile_sublist _).subset hmem)).2.2.2 rfl
  have htrim : trim p.render = trimStart p.key ++ '=' :: trimEnd p.value.render := by
    rw [trim, XfccPair.render, trimStart_append_cons heq, trimEnd_append_cons heq]
  rw [certOfPair, htrim, splitOnce_append hkey]
  simp only [isCertKey, trim_trimStart, trim_trimEnd, unquote_trim_render p.value_plain]
  rfl

/-! ## The whole header -/

theorem XfccPair.intact (p : XfccPair) {delim : Char} (hdelim : delim = ',' ∨ delim = ';') :
    QuotedSplit.Intact '"' delim p.render := by
  have hkey : QuotedSplit.Intact '"' delim p.key := by
    refine .of_plain fun c hc ↦ ?_
    obtain ⟨hquote, hcomma, hsemi, -⟩ := p.key_plain c hc
    rcases hdelim with rfl | rfl
    · exact ⟨hquote, hcomma⟩
    · exact ⟨hquote, hsemi⟩
  have hequals : QuotedSplit.Intact '"' delim ['='] := by
    rcases hdelim with rfl | rfl
    · exact .singleton (by decide) (by decide)
    · exact .singleton (by decide) (by decide)
  have hvalue : QuotedSplit.Intact '"' delim p.value.render := by
    have hplain := p.value_plain
    cases hv : p.value with
    | raw =>
      rw [hv] at hplain
      refine .of_plain fun c hc ↦ ?_
      obtain ⟨hquote, hcomma, hsemi⟩ := hplain c hc
      rcases hdelim with rfl | rfl
      · exact ⟨hquote, hcomma⟩
      · exact ⟨hquote, hsemi⟩
    | quoted =>
      rw [hv] at hplain
      exact .quoted hplain
  exact hkey.append (hequals.append hvalue)

namespace XfccElement

variable (e : XfccElement)

theorem intact : QuotedSplit.Intact '"' ',' e.render := by
  refine .intercalate (by decide) (by decide) fun p hp ↦ ?_
  obtain ⟨pair, -, rfl⟩ := List.mem_map.mp hp
  exact pair.intact (.inl rfl)

theorem splitXfccPairs_render : splitXfccPairs e.render = e.pairs.map XfccPair.render := by
  refine QuotedSplit.split_intercalate (by decide) (by simpa using e.nonempty) fun p hp ↦ ?_
  obtain ⟨pair, -, rfl⟩ := List.mem_map.mp hp
  exact pair.intact (.inr rfl)

theorem findSome?_certOfPair : (splitXfccPairs e.render).findSome? certOfPair = e.cert := by
  rw [splitXfccPairs_render, cert]
  induction e.pairs with
  | nil => rfl
  | cons p pairs ih =>
    rw [List.map_cons, List.findSome?_cons, certOfPair_render, List.find?_cons]
    cases isCertKey p.key with
    | true => rfl
    | false => exact ih

end XfccElement

theorem parseXfccCert_suffixed {before : List Char} (hbefore : Even (before.count '"'))
    (e : XfccElement) : parseXfccCert (before ++ ',' :: e.render) = e.cert := by
  have hlast : (splitXfccElements (before ++ ',' :: e.render)).getLast? = some e.render :=
    QuotedSplit.getLast?_split (by decide) hbefore e.intact
  rw [parseXfccCert, hlast]
  exact e.findSome?_certOfPair

theorem parseXfccCert_alone (e : XfccElement) : parseXfccCert e.render = e.cert := by
  have hlast : splitXfccElements e.render = [e.render] := QuotedSplit.split_of_intact e.intact
  rw [parseXfccCert, hlast]
  exact e.findSome?_certOfPair

/-! ## Bytes and characters -/

theorem ofUInt8_injective : Function.Injective Char.ofUInt8 := by
  intro a b h
  exact UInt8.toUInt32_inj.mp (congrArg Char.val h)

theorem count_map_ofUInt8 (text : List UInt8) :
    (text.map Char.ofUInt8).count '"' = text.count '"'.toUInt8 :=
  count_map_of_injective text Char.ofUInt8 ofUInt8_injective '"'.toUInt8

theorem ascii_roundtrip :
    ∀ n < 127, (32 ≤ n ∨ n = 9) → isVisibleAscii (Char.ofNat n).toUInt8 = true ∧
      Char.ofUInt8 (Char.ofNat n).toUInt8 = Char.ofNat n := by
  decide +kernel

theorem visible_char (h : 32 ≤ c.toNat ∧ c.toNat < 127 ∨ c = '\t') :
    isVisibleAscii c.toUInt8 = true ∧ Char.ofUInt8 c.toUInt8 = c := by
  have hbound : c.toNat < 127 ∧ (32 ≤ c.toNat ∨ c.toNat = 9) := by
    rcases h with ⟨hlow, hhigh⟩ | rfl
    · exact ⟨hhigh, .inl hlow⟩
    · decide
  have hchar := ascii_roundtrip c.toNat hbound.1 hbound.2
  rwa [Char.ofNat_toNat] at hchar

theorem mem_of_mem_intercalate {sep : Char} {parts : List (List Char)}
    (h : c ∈ List.intercalate [sep] parts) : c = sep ∨ ∃ p ∈ parts, c ∈ p := by
  induction parts with
  | nil => simp at h
  | cons p parts ih =>
    cases parts with
    | nil => exact .inr ⟨p, List.mem_cons_self, by simpa using h⟩
    | cons =>
      rcases List.mem_append.mp h with hp | hrest
      · exact .inr ⟨p, List.mem_cons_self, hp⟩
      · rcases List.mem_cons.mp hrest with hsep | hrest
        · exact .inl hsep
        · refine (ih hrest).imp_right ?_
          rintro ⟨r, hr, hc⟩
          exact ⟨r, List.mem_cons_of_mem p hr, hc⟩

theorem XfccElement.visible_render (e : XfccElement) (hc : c ∈ e.render) :
    isVisibleAscii c.toUInt8 = true ∧ Char.ofUInt8 c.toUInt8 = c := by
  rcases mem_of_mem_intercalate hc with rfl | ⟨p, hp, hcp⟩
  · decide
  · obtain ⟨pair, hpair, rfl⟩ := List.mem_map.mp hp
    exact visible_char (e.visible pair hpair c hcp)

theorem XfccElement.map_bytes (e : XfccElement) : e.bytes.map Char.ofUInt8 = e.render := by
  rw [bytes, List.map_map]
  exact (List.map_congr_left fun c hc ↦ (e.visible_render hc).2).trans (List.map_id _)

/-! ## The nearest proxy decides -/

theorem Parts.get_eq_head? (parts : Parts Ip) (name : String) :
    parts.get name = (parts.lines name).head? := by
  rw [Parts.get, Parts.lines, List.head?_map, List.head?_filter]

theorem Arrives.exists_head? {e : XfccElement} {client arrived : List (List UInt8)}
    (h : Arrives e client arrived) : ∃ line, arrived.head? = some line := by
  cases h with
  | suffixed lines last => cases lines <;> exact ⟨_, rfl⟩
  | further => cases client <;> exact ⟨_, rfl⟩

theorem names_iff {line : List Char} {cert : Option (List Char)} :
    Names line cert ↔ parseXfccCert line = cert := by
  have hcomma : ',' ≠ '"' := by decide
  have hsemi : ';' ≠ '"' := by decide
  have hlast : ∃ element, (splitXfccElements line).getLast? = some element := by
    simp [splitXfccElements, QuotedSplit.split]
  obtain ⟨element, helement⟩ := hlast
  simp only [parseXfccCert, helement]
  constructor
  · rintro ⟨elements, last, pairs, helements, hlast, hpairs, rfl⟩
    rw [← QuotedSplit.split_eq_iff hcomma] at helements
    rw [← QuotedSplit.split_eq_iff hsemi] at hpairs
    subst helements hpairs
    cases hlast.symm.trans helement
    rfl
  · intro hcert
    exact ⟨_, element, _, (QuotedSplit.split_eq_iff hcomma).mp rfl, helement,
      (QuotedSplit.split_eq_iff hsemi).mp rfl, hcert⟩

theorem Closed.parseXfccCert_eq {e : XfccElement} {line : List UInt8} (h : Closed e line) :
    parseXfccCert (line.map Char.ofUInt8) = e.cert := by
  rcases h with rfl | ⟨text, rfl, heven⟩
  · rw [e.map_bytes]
    exact parseXfccCert_alone e
  · rw [List.map_append, List.map_cons, e.map_bytes]
    exact parseXfccCert_suffixed (by rwa [count_map_ofUInt8]) e

theorem undisturbed_iff {lib : Decoders} {e : XfccElement} {line : List UInt8} :
    Undisturbed lib e line ↔ line.all isVisibleAscii ∧ line.length ≤ maxProxyCertHeaderLen ∧
      decoded lib (parseXfccCert (line.map Char.ofUInt8)) = decoded lib e.cert := by
  constructor
  · rintro ⟨hvisible, hshort, halike⟩
    refine ⟨hvisible, hshort, ?_⟩
    by_cases hclosed : Closed e line
    · rw [hclosed.parseXfccCert_eq]
    · obtain ⟨cert, hnames, hdecoded⟩ := halike hclosed
      rwa [names_iff.mp hnames]
  · rintro ⟨hvisible, hshort, hdecoded⟩
    exact ⟨hvisible, hshort, fun _ ↦ ⟨_, names_iff.mpr rfl, hdecoded⟩⟩

/-- A line that is refused as a whole names nothing. -/
theorem decoded_ne_unreadable (lib : Decoders) (cert : Option (List Char)) :
    decoded lib cert ≠ .error "X-Forwarded-Client-Cert header is not valid UTF-8" ∧
      decoded lib cert ≠ .error "X-Forwarded-Client-Cert header exceeds size limit" := by
  unfold decoded decodePem
  split
  · split
    · constructor <;> intro h <;> exact absurd (Except.error.inj h) (by decide +kernel)
    · split
      · constructor <;> intro h <;> exact absurd (Except.error.inj h) (by decide +kernel)
      · exact ⟨nofun, nofun⟩
  · exact ⟨nofun, nofun⟩

/-- Behind a trusted proxy, the certificate is the one that the proxy's own
element names just when the client does not disturb it. -/
theorem nearest_proxy_decides (lib : Decoders) (parts : Parts Ip)
    (proxyCfg : AdminProxyAuthConfig Ip) (ip : Ip) (e : XfccElement) (client : List (List UInt8))
    (hformat : proxyCfg.headerFormat = .xfcc) (hpeer : parts.connectInfo = some ip)
    (htrusted : proxyCfg.trustedProxies ip = true)
    (harrives : Arrives e client (parts.lines ProxyHeaderFormat.xfcc.headerName)) :
    extractProxyCert lib parts proxyCfg = e.named lib ↔
      ∃ line, (parts.lines ProxyHeaderFormat.xfcc.headerName).head? = some line ∧
        Undisturbed lib e line := by
  obtain ⟨line, hline⟩ := harrives.exists_head?
  have hget : parts.get ProxyHeaderFormat.xfcc.headerName = some line := by
    rw [Parts.get_eq_head?, hline]
  have hunreadable := decoded_ne_unreadable lib e.cert
  simp only [hline, Option.some.injEq, exists_eq_left', undisturbed_iff, XfccElement.named,
    extractProxyCert, hpeer, htrusted, hformat, hget, if_true]
  by_cases hvisible : line.all isVisibleAscii
  · have hstr : toStr line = some (line.map Char.ofUInt8) := if_pos hvisible
    by_cases hshort : line.length ≤ maxProxyCertHeaderLen
    · simp only [hstr, List.length_map, gt_iff_lt, Nat.not_lt.mpr hshort, if_false, hvisible,
        hshort, true_and]
      cases parseXfccCert (line.map Char.ofUInt8) <;> rfl
    · simp only [hstr, List.length_map, gt_iff_lt, Nat.lt_of_not_le hshort, if_true, hshort,
        false_and, and_false, iff_false]
      exact hunreadable.2.symm
  · have hstr : toStr line = none := if_neg hvisible
    simp only [hstr, hvisible, Bool.false_eq_true, false_and, iff_false]
    exact hunreadable.1.symm

/-! ## A client that names a certificate itself -/

def ascii (s : String) : List UInt8 := s.toList.map Char.toUInt8

def plainDecoders : Decoders where
  percentDecodeUtf8 := some
  pemToDer text := [text.map Char.toUInt8]

/-- `Cert="PEER"`. -/
def sampleElement : XfccElement where
  pairs := [{ key := "Cert".toList, value := .quoted "PEER".toList, key_plain := by simp,
              value_plain := by simp [XfccValue.Plain] }]
  nonempty := by decide
  visible := by
    have hchars : ("Cert".toList ++ '=' :: '"' :: "PEER".toList ++ ['"']).all
        fun c ↦ decide (32 ≤ c.toNat ∧ c.toNat < 127 ∨ c = '\t') := by decide +kernel
    intro p hp c hc
    rw [List.mem_singleton.mp hp] at hc
    exact of_decide_eq_true (List.all_eq_true.mp hchars c hc)

def sampleConfig : AdminProxyAuthConfig Unit := ⟨fun _ ↦ true, .xfcc⟩

def sampleParts (lines : List (List UInt8)) : Parts Unit where
  connectInfo := some ()
  headers := lines.map fun line ↦ ("x-forwarded-client-cert", line)

/-- An open quote before the comma, a line of its own, or a byte that is no
visible ASCII. -/
theorem client_decides :
    sampleElement.named plainDecoders = .ok (some (ascii "PEER")) ∧
      extractProxyCert plainDecoders (sampleParts
        [ascii "Cert=OTHER;Subject=\"" ++ ','.toUInt8 :: sampleElement.bytes]) sampleConfig =
          .ok (some (ascii "OTHER")) ∧
      extractProxyCert plainDecoders (sampleParts [ascii "Cert=OTHER", sampleElement.bytes])
        sampleConfig = .ok (some (ascii "OTHER")) ∧
      extractProxyCert plainDecoders (sampleParts [[128] ++ ','.toUInt8 :: sampleElement.bytes])
        sampleConfig = .error "X-Forwarded-Client-Cert header is not valid UTF-8" := by
  decide +kernel

/-- A comma and a certificate between the client's quotes do no harm. -/
theorem closed_quotes_decided :
    extractProxyCert plainDecoders (sampleParts
        [ascii "Subject=\"O=x, Cert=OTHER\"" ++ ','.toUInt8 :: sampleElement.bytes]) sampleConfig =
      .ok (some (ascii "PEER")) := by
  have hlines : (sampleParts [ascii "Subject=\"O=x, Cert=OTHER\"" ++
      ','.toUInt8 :: sampleElement.bytes]).lines ProxyHeaderFormat.xfcc.headerName =
        [] ++ [ascii "Subject=\"O=x, Cert=OTHER\"" ++ ','.toUInt8 :: sampleElement.bytes] := by
    decide +kernel
  have hnamed : sampleElement.named plainDecoders = .ok (some (ascii "PEER")) := by
    decide +kernel
  have hclosed : Closed sampleElement
      (ascii "Subject=\"O=x, Cert=OTHER\"" ++ ','.toUInt8 :: sampleElement.bytes) :=
    .inr ⟨_, rfl, by decide +kernel⟩
  rw [← hnamed]
  refine (nearest_proxy_decides plainDecoders _ sampleConfig () sampleElement
    ([] ++ [ascii "Subject=\"O=x, Cert=OTHER\""]) rfl rfl rfl (hlines ▸ .suffixed _ _)).mpr ?_
  rw [hlines]
  exact ⟨_, rfl, by decide +kernel, by decide +kernel, fun hopen ↦ absurd hclosed hopen⟩

end Akamu.ProxyCert
