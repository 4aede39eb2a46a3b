import FqClient.DocumentedDecoders

namespace FqClient

/-! ## Records as fields -/

/-- The decimal digits of a number, in ASCII. -/
def numberField (n : ℕ) : Bytes := (Nat.toDigits 10 n).map ascii

def flagField (flag : Bool) : Bytes := [ascii (if flag then '1' else '0')]

/-- A text that its encoding keeps in one field. -/
def Unsplit (s : Str) : Prop := fieldDelimiter ∉ encodeUtf8 s

def valueParts (value : ℕ) : List Bytes := [numberField value]

def boolParts (flag : Bool) : List Bytes := [flagField flag]

def valuesParts (values : List ℕ) : List Bytes := values.map numberField

def helloParts (info : HelloInfo) : List Bytes :=
  [numberField info.version, numberField info.maxMessageSize, flagField info.authRequired,
    encodeUtf8 info.role]

def rateLimitParts (result : RateLimitResult) : List Bytes :=
  [flagField result.allowed, numberField result.current, numberField result.remaining,
    numberField result.resetAfter]

def quotaAcquireParts (result : QuotaAcquireResult) : List Bytes :=
  [flagField result.acquired, numberField result.allocated, numberField result.used,
    numberField result.remaining, numberField result.expiresAfter]

def clientParts (client : QuotaClientInfo) : List Bytes :=
  [encodeUtf8 client.clientId, numberField client.amount, numberField client.expiresAt]

def quotaInfoParts (info : QuotaInfo) : List Bytes :=
  numberField info.limit :: numberField info.used :: numberField info.remaining ::
    info.clients.flatMap clientParts

def keyParts (found : ScanKey) : List Bytes := [encodeUtf8 found.key, numberField found.window]

def scanParts (result : ScanResult) : List Bytes :=
  encodeUtf8 result.cursor :: result.keys.flatMap keyParts

def limitEventParts (event : LimitEvent) : List Bytes :=
  [encodeUtf8 event.key, numberField event.window, numberField event.current,
    numberField event.resetAfter]

def quotaEventParts (event : QuotaEvent) : List Bytes :=
  [encodeUtf8 event.event, encodeUtf8 event.name, encodeUtf8 event.clientId,
    numberField event.amount, numberField event.used, numberField event.remaining,
    numberField event.expiresAt]

/-- Every record that `Sendable` allows comes back from its fields. -/
def RoundTrips {α : Type} (decode : Bytes → Except Exc α) (parts : α → List Bytes)
    (Sendable : α → Prop) : Prop :=
  ∀ record, Sendable record → decode (okPayload (parts record)) = .ok record

/-! ## Fields of numbers, flags and texts -/

theorem ascii_of_isDigit {c : Char} (hc : c.isDigit) :
    ascii '0' ≤ ascii c ∧ ascii c ≤ ascii '9' ∧ (ascii c).toNat = c.toNat := by
  obtain ⟨hlow, hhigh⟩ := Char.isDigit_iff_toNat.mp hc
  have hbyte : (ascii c).toNat = c.toNat := toNat_byte (by change _ ≤ 57 at hhigh; omega)
  refine ⟨?_, ?_, hbyte⟩
  · rw [UInt8.le_iff_toNat_le, hbyte]
    exact hlow
  · rw [UInt8.le_iff_toNat_le, hbyte]
    exact hhigh

theorem digitsValue_map_ascii {cs : List Char} (hcs : ∀ c ∈ cs, c.isDigit) (init : ℕ) :
    (cs.map ascii).foldl (fun n byte => 10 * n + (byte.toNat - 48)) init =
      Nat.ofDigitChars 10 cs init := by
  induction cs generalizing init with
  | nil => rfl
  | cons c cs ih =>
    rw [List.map_cons, List.foldl_cons, (ascii_of_isDigit (hcs c List.mem_cons_self)).2.2,
      ih fun c' hc' => hcs c' (List.mem_cons_of_mem _ hc'), Nat.ofDigitChars_cons]
    rfl

theorem isNumber_numberField (n : ℕ) : IsNumber (numberField n) n := by
  have hdigits : ∀ c ∈ Nat.toDigits 10 n, c.isDigit :=
    fun c hc => Nat.isDigit_of_mem_toDigits (by decide) (by decide) hc
  refine ⟨?_, ?_, ?_⟩
  · intro hnil
    exact Nat.toDigits_ne_nil (List.map_eq_nil_iff.mp hnil)
  · intro byte hbyte
    obtain ⟨c, hc, rfl⟩ := List.mem_map.mp hbyte
    have hascii := ascii_of_isDigit (hdigits c hc)
    exact ⟨hascii.1, hascii.2.1⟩
  · rw [← digitsValue_eq]
    unfold digitsValue numberField
    rw [digitsValue_map_ascii hdigits]
    exact Nat.ofDigitChars_ten_toDigits.symm

theorem isFlag_flagField (flag : Bool) : IsFlag (flagField flag) flag := rfl

theorem numberField_free (n : ℕ) : fieldDelimiter ∉ numberField n :=
  not_fieldDelimiter_of_number (isNumber_numberField n)

theorem flagField_free (flag : Bool) : fieldDelimiter ∉ flagField flag :=
  not_fieldDelimiter_of_flag (isFlag_flagField flag)

theorem roundTrips_of_documented {α : Type} {decode : Bytes → Except Exc α}
    {Fits : List Bytes → α → Prop} {parts : α → List Bytes} {Sendable : α → Prop}
    (h : Documented decode Fits) (hparts : ∀ record, Sendable record → Separated (parts record))
    (hfits : ∀ record, Sendable record → Fits (parts record) record) :
    RoundTrips decode parts Sendable := by
  intro record hrecord
  exact (h.value _ _).mpr ⟨parts record, rfl, hparts record hrecord, hfits record hrecord⟩

theorem separated_clients {clients : List QuotaClientInfo}
    (h : ∀ client ∈ clients, Unsplit client.clientId) :
    ∀ field ∈ clients.flatMap clientParts, fieldDelimiter ∉ field := by
  intro field hfield
  obtain ⟨client, hclient, hmem⟩ := List.mem_flatMap.mp hfield
  have hfree : Unsplit client.clientId := h client hclient
  unfold Unsplit at hfree
  simp only [clientParts, List.mem_cons, List.not_mem_nil, or_false] at hmem
  rcases hmem with heq | heq | heq <;> simp [heq, hfree, numberField_free]

theorem separated_keys {keys : List ScanKey} (h : ∀ found ∈ keys, Unsplit found.key) :
    ∀ field ∈ keys.flatMap keyParts, fieldDelimiter ∉ field := by
  intro field hfield
  obtain ⟨found, hfound, hmem⟩ := List.mem_flatMap.mp hfield
  have hfree : Unsplit found.key := h found hfound
  unfold Unsplit at hfree
  simp only [keyParts, List.mem_cons, List.not_mem_nil, or_false] at hmem
  rcases hmem with heq | heq <;> simp [heq, hfree, numberField_free]

theorem clientFields_clientParts (clients : List QuotaClientInfo) :
    ClientFields (clients.flatMap clientParts) clients := by
  induction clients with
  | nil => trivial
  | cons client clients ih =>
    exact ⟨(text_encodeUtf8 _).symm, isNumber_numberField _, isNumber_numberField _, ih⟩

theorem keyFields_keyParts (keys : List ScanKey) : KeyFields (keys.flatMap keyParts) keys := by
  induction keys with
  | nil => trivial
  | cons found keys ih => exact ⟨(text_encodeUtf8 _).symm, isNumber_numberField _, ih⟩

theorem roundTrips_parseValue : RoundTrips (parseValue · 0) valueParts fun _ => True := by
  apply roundTrips_of_documented documented_parseValue
  · intro value _
    exact ⟨List.cons_ne_nil _ _, by simp [valueParts, numberField_free]⟩
  · intro value _
    exact ⟨_, rfl, isNumber_numberField value⟩

theorem roundTrips_parseBool : RoundTrips (parseBool · 0) boolParts fun _ => True := by
  apply roundTrips_of_documented documented_parseBool
  · intro flag _
    exact ⟨List.cons_ne_nil _ _, by simp [boolParts, flagField_free]⟩
  · intro flag _
    exact ⟨_, rfl, isFlag_flagField flag⟩

theorem roundTrips_parseValues :
    RoundTrips (parseValues · 0) valuesParts fun values => values ≠ [] := by
  apply roundTrips_of_documented documented_parseValues
  · intro values hvalues
    refine ⟨by simpa [valuesParts] using hvalues, ?_⟩
    intro field hfield
    obtain ⟨value, _, rfl⟩ := List.mem_map.mp hfield
    exact numberField_free value
  · intro values _
    exact List.forall₂_map_left_iff.mpr (List.forall₂_same.mpr fun value _ =>
      isNumber_numberField value)

theorem roundTrips_parseHello : RoundTrips (parseHello · 0) helloParts
    fun info => 0 < info.maxMessageSize ∧ Unsplit info.role := by
  apply roundTrips_of_documented documented_parseHello
  · intro info ⟨_, hrole⟩
    unfold Unsplit at hrole
    exact ⟨List.cons_ne_nil _ _, by simp [helloParts, numberField_free, flagField_free, hrole]⟩
  · intro info ⟨hsize, _⟩
    exact ⟨isNumber_numberField _, isNumber_numberField _, hsize, isFlag_flagField _,
      (text_encodeUtf8 _).symm⟩

theorem roundTrips_parseRateLimit :
    RoundTrips (parseRateLimit · 0) rateLimitParts fun _ => True := by
  apply roundTrips_of_documented documented_parseRateLimit
  · intro result _
    exact ⟨List.cons_ne_nil _ _, by simp [rateLimitParts, numberField_free, flagField_free]⟩
  · intro result _
    exact ⟨isFlag_flagField _, isNumber_numberField _, isNumber_numberField _,
      isNumber_numberField _⟩

theorem roundTrips_parseQuotaAcquire :
    RoundTrips (parseQuotaAcquire · 0) quotaAcquireParts fun _ => True := by
  apply roundTrips_of_documented documented_parseQuotaAcquire
  · intro result _
    exact ⟨List.cons_ne_nil _ _, by simp [quotaAcquireParts, numberField_free, flagField_free]⟩
  · intro result _
    exact ⟨isFlag_flagField _, isNumber_numberField _, isNumber_numberField _,
      isNumber_numberField _, isNumber_numberField _⟩

theorem roundTrips_parseQuotaInfo : RoundTrips (parseQuotaInfo · 0) quotaInfoParts
    fun info => ∀ client ∈ info.clients, Unsplit client.clientId := by
  apply roundTrips_of_documented documented_parseQuotaInfo
  · intro info hclients
    refine ⟨List.cons_ne_nil _ _, ?_⟩
    simp only [quotaInfoParts, List.forall_mem_cons]
    exact ⟨numberField_free _, numberField_free _, numberField_free _, separated_clients hclients⟩
  · intro info _
    exact ⟨isNumber_numberField _, isNumber_numberField _, isNumber_numberField _,
      clientFields_clientParts _⟩

theorem roundTrips_parseScan : RoundTrips (parseScan · 0) scanParts
    fun result => Unsplit result.cursor ∧ ∀ found ∈ result.keys, Unsplit found.key := by
  apply roundTrips_of_documented documented_parseScan
  · intro result ⟨hcursor, hkeys⟩
    refine ⟨List.cons_ne_nil _ _, ?_⟩
    simp only [scanParts, List.forall_mem_cons]
    exact ⟨hcursor, separated_keys hkeys⟩
  · intro result _
    exact ⟨(text_encodeUtf8 _).symm, keyFields_keyParts _⟩

theorem roundTrips_parseLimitEvent : RoundTrips (parseLimitEvent · 0) limitEventParts
    fun event => Unsplit event.key := by
  apply roundTrips_of_documented documented_parseLimitEvent
  · intro event hkey
    unfold Unsplit at hkey
    exact ⟨List.cons_ne_nil _ _, by simp [limitEventParts, numberField_free, hkey]⟩
  · intro event _
    exact ⟨(text_encodeUtf8 _).symm, isNumber_numberField _, isNumber_numberField _,
      isNumber_numberField _⟩

theorem roundTrips_parseQuotaEvent : RoundTrips (parseQuotaEvent · 0) quotaEventParts
    fun event => Unsplit event.event ∧ Unsplit event.name ∧ Unsplit event.clientId := by
  apply roundTrips_of_documented documented_parseQuotaEvent
  · intro event ⟨hevent, hname, hclient⟩
    unfold Unsplit at hevent hname hclient
    exact ⟨List.cons_ne_nil _ _,
      by simp [quotaEventParts, numberField_free, hevent, hname, hclient]⟩
  · intro event _
    exact ⟨(text_encodeUtf8 _).symm, (text_encodeUtf8 _).symm, (text_encodeUtf8 _).symm,
      isNumber_numberField _, isNumber_numberField _, isNumber_numberField _,
      isNumber_numberField _⟩

/-- Each decoder accepts its documented responses and no others, and a record whose texts have no
`;` comes back from its fields. -/
theorem decoders_accept_documented_grammar :
    Documented (parseValue · 0) ValueFields ∧
    Documented (parseBool · 0) BoolFields ∧
    Documented (parseValues · 0) ValuesFields ∧
    Documented (parseHello · 0) HelloFields ∧
    Documented (parseRateLimit · 0) RateLimitFields ∧
    Documented (parseQuotaAcquire · 0) QuotaAcquireFields ∧
    Documented (parseQuotaInfo · 0) QuotaInfoFields ∧
    Documented (parseScan · 0) ScanFields ∧
    Documented (parseLimitEvent · 0) LimitEventFields ∧
    Documented (parseQuotaEvent · 0) QuotaEventFields ∧
    RoundTrips (parseValue · 0) valueParts (fun _ => True) ∧
    RoundTrips (parseBool · 0) boolParts (fun _ => True) ∧
    RoundTrips (parseValues · 0) valuesParts (fun values => values ≠ []) ∧
    RoundTrips (parseHello · 0) helloParts
      (fun info => 0 < info.maxMessageSize ∧ Unsplit info.role) ∧
    RoundTrips (parseRateLimit · 0) rateLimitParts (fun _ => True) ∧
    RoundTrips (parseQuotaAcquire · 0) quotaAcquireParts (fun _ => True) ∧
    RoundTrips (parseQuotaInfo · 0) quotaInfoParts
      (fun info => ∀ client ∈ info.clients, Unsplit client.clientId) ∧
    RoundTrips (parseScan · 0) scanParts
      (fun result => Unsplit result.cursor ∧ ∀ found ∈ result.keys, Unsplit found.key) ∧
    RoundTrips (parseLimitEvent · 0) limitEventParts (fun event => Unsplit event.key) ∧
    RoundTrips (parseQuotaEvent · 0) quotaEventParts
      (fun event => Unsplit event.event ∧ Unsplit event.name ∧ Unsplit event.clientId) :=
  ⟨documented_parseValue, documented_parseBool, documented_parseValues, documented_parseHello,
    documented_parseRateLimit, documented_parseQuotaAcquire, documented_parseQuotaInfo,
    documented_parseScan, documented_parseLimitEvent, documented_parseQuotaEvent,
    roundTrips_parseValue, roundTrips_parseBool, roundTrips_parseValues, roundTrips_parseHello,
    roundTrips_parseRateLimit, roundTrips_parseQuotaAcquire, roundTrips_parseQuotaInfo,
    roundTrips_parseScan, roundTrips_parseLimitEvent, roundTrips_parseQuotaEvent⟩

end FqClient
