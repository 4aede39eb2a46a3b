import FqClient.Commands

namespace FqClient

/-! ## The words of a payload -/

/-- What `str()` makes of an argument, when it does not raise. -/
def Part.text : Part → Str
  | .str text => text
  | .int value => decimal value

theorem Part.text_of_toStr {p : Part} {s : Str} (h : p.toStr = .ok s) : s = p.text := by
  cases p with
  | str text => exact (Except.ok.inj h).symm
  | int value => exact decimal_of_intToStr h

theorem texts_of_mapM {parts : List Part} {texts : List Str}
    (h : parts.mapM Part.toStr = .ok texts) : texts = parts.map Part.text := by
  induction parts generalizing texts with
  | nil => exact (Except.ok.inj h).symm
  | cons p parts ih =>
    rw [List.mapM_cons] at h
    cases hp : p.toStr with
    | error e => rw [hp] at h; cases h
    | ok s =>
      cases hs : parts.mapM Part.toStr with
      | error e => rw [hp, hs] at h; cases h
      | ok ss =>
        rw [hp, hs] at h
        obtain rfl := Except.ok.inj h
        rw [List.map_cons, ← Part.text_of_toStr hp, ← ih hs]

theorem payload_of_join {parts : List Part} {payload : Bytes}
    (h : Commands.join parts = .ok payload) :
    payload = encodeUtf8 ([' '].intercalate (parts.map Part.text)) := by
  unfold Commands.join at h
  cases hs : parts.mapM Part.toStr with
  | error e => rw [hs] at h; cases h
  | ok texts =>
    rw [hs] at h
    rw [← texts_of_mapM hs]
    exact (Except.ok.inj h).symm

theorem payload_of_readOnly {parts : List Part} {m : Command}
    (h : Commands.readOnly parts = .ok m) :
    m.payload = encodeUtf8 ([' '].intercalate (parts.map Part.text)) ∧ m.readOnly = true := by
  unfold Commands.readOnly at h
  cases hj : Commands.join parts with
  | error e => rw [hj] at h; cases h
  | ok payload =>
    rw [hj] at h
    obtain rfl := Except.ok.inj h
    exact ⟨payload_of_join hj, rfl⟩

theorem payload_of_mutating {parts : List Part} {m : Command}
    (h : Commands.mutating parts = .ok m) :
    m.payload = encodeUtf8 ([' '].intercalate (parts.map Part.text)) ∧ m.readOnly = false := by
  unfold Commands.mutating at h
  cases hj : Commands.join parts with
  | error e => rw [hj] at h; cases h
  | ok payload =>
    rw [hj] at h
    obtain rfl := Except.ok.inj h
    exact ⟨payload_of_join hj, rfl⟩

/-- The literal words that a command starts with. -/
def Encoder.head : Encoder → List Str
  | .hello => ["HELLO".toList]
  | .incr => ["INCR".toList]
  | .incrby => ["INCRBY".toList]
  | .get => ["GET".toList]
  | .watch => ["WATCH".toList]
  | .delete => ["DEL".toList]
  | .mdelete => ["MDEL".toList]
  | .rlimitFixedWindow => ["RLIMIT".toList, "FW".toList]
  | .rlimitSlidingWindow => ["RLIMIT".toList, "SW".toList]
  | .rlimitTokenBucket => ["RLIMIT".toList, "TB".toList]
  | .quotaSet => ["QUOTA".toList, "SET".toList]
  | .quotaSetN => ["QUOTA".toList, "SETN".toList]
  | .quotaAcquire => ["QUOTA".toList, "ACQ".toList]
  | .quotaAcquireN => ["QUOTA".toList, "ACQN".toList]
  | .quotaAcquireLease => ["QUOTA".toList, "ACQL".toList]
  | .quotaRelease => ["QUOTA".toList, "REL".toList]
  | .quotaDelete => ["QUOTA".toList, "DEL".toList]
  | .quotaInfo => ["QUOTA".toList, "INF".toList]
  | .scan => ["SCAN".toList]
  | .pscan => ["PSCAN".toList]
  | .flushdb => ["FLUSHDB".toList]
  | .truncate => ["TRUNCATE".toList]
  | .inspect => ["INSPECT".toList]
  | .stream => ["STREAM".toList]
  | .pstream => ["PSTREAM".toList]
  | .qstream => ["QSTREAM".toList]
  | .qpstream => ["QPSTREAM".toList]

/-- The optional trailing word. -/
def ttlField (ttl : Option ℤ) : List Str := (ttl.map decimal).toList

/-- The fields that follow the head, as text. -/
def Encoder.fields : (e : Encoder) → e.Args → List Str
  | .hello, some (c :: cs) => [decimal protocolVersion, "AUTH".toList, c :: cs]
  | .hello, _ => [decimal protocolVersion]
  | .incr, key | .get, key | .watch, key | .delete, key => [key.key, decimal key.capping]
  | .incrby, (key, value) => [key.key, decimal key.capping, decimal value]
  | .mdelete, keys => keys.flatMap fun key => [key.key, decimal key.capping]
  | .rlimitFixedWindow, (key, limit) | .rlimitSlidingWindow, (key, limit) =>
    [key.key, decimal limit, decimal key.window]
  | .rlimitTokenBucket, (key, capacity, refill) =>
    [key.key, decimal capacity, decimal refill, decimal key.window]
  | .quotaSet, (name, limit) => [name, decimal limit]
  | .quotaSetN, (name, limit, clients) => [name, decimal limit, decimal clients]
  | .quotaAcquire, (name, amount, clientId, ttl) =>
    [name, decimal amount, clientId] ++ ttlField ttl
  | .quotaAcquireN, (name, clientId, ttl) => [name, clientId] ++ ttlField ttl
  | .quotaAcquireLease, (name, limit, amount, clientId, ttl) =>
    [name, decimal limit, decimal amount, clientId] ++ ttlField ttl
  | .quotaRelease, (name, clientId) => [name, clientId]
  | .quotaDelete, name | .quotaInfo, name => [name]
  | .scan, (count, cursor) => [Commands.cursorOrInitial cursor, decimal count]
  | .pscan, (pfx, count, cursor) => [pfx, Commands.cursorOrInitial cursor, decimal count]
  | .inspect, .summary => []
  | .inspect, section' => [section'.value]
  | .pstream, pfx | .qpstream, pfx => [pfx]
  | .flushdb, _ | .truncate, _ | .stream, _ | .qstream, _ => []

theorem text_ttlPart (ttl : Option ℤ) : (Commands.ttlPart ttl).map Part.text = ttlField ttl := by
  cases ttl <;> rfl

theorem text_pairs (keys : List CappingKey) :
    (keys.flatMap fun key => [Part.str key.key, .int key.capping]).map Part.text =
      keys.flatMap fun key => [key.key, decimal key.capping] := by
  simp [List.map_flatMap, Part.text]

theorem check_then {values : List ℤ} {c : Except Exc Command} {m : Command}
    (h : (do Commands.checkValues values; c) = .ok m) : c = .ok m := by
  cases hv : Commands.checkValues values with
  | error e => rw [hv] at h; cases h
  | ok _ => rw [hv] at h; exact h

/-- An encoder that returns has joined its head and its fields. -/
theorem Encoder.payload_eq (e : Encoder) (a : e.Args) {m : Command} (h : e.encode a = .ok m) :
    m.payload = encodeUtf8 ([' '].intercalate (e.head ++ e.fields a)) := by
  cases e with
  | hello =>
    rcases a with _ | _ | ⟨c, cs⟩ <;> exact (payload_of_readOnly h).1
  | incr | delete => exact (payload_of_mutating h).1
  | get | watch => exact (payload_of_readOnly h).1
  | incrby | rlimitFixedWindow | rlimitSlidingWindow | rlimitTokenBucket | quotaSet | quotaSetN =>
    exact (payload_of_mutating (check_then h)).1
  | mdelete =>
    rw [(payload_of_mutating h).1, List.map_cons, text_pairs]
    rfl
  | quotaAcquire =>
    rw [(payload_of_mutating (check_then h)).1, List.map_append, text_ttlPart]
    rfl
  | quotaAcquireLease =>
    rw [(payload_of_mutating (check_then h)).1, List.map_append, text_ttlPart]
    rfl
  | quotaAcquireN =>
    obtain ⟨name, clientId, ttl⟩ := a
    have hm : Commands.quotaAcquireN name clientId ttl = .ok m := h
    rw [(payload_of_mutating hm).1, List.map_append, text_ttlPart]
    rfl
  | quotaRelease | quotaDelete | flushdb | truncate => exact (payload_of_mutating h).1
  | quotaInfo | scan | pscan | stream | pstream | qstream | qpstream =>
    exact (payload_of_readOnly h).1
  | inspect => cases a <;> exact (payload_of_readOnly h).1

/-! ## Telling calls apart -/

open Delimited

theorem Encoder.head_free (e : Encoder) : ∀ w ∈ e.head, ' ' ∉ w := by
  have h : ∀ e ∈ Encoder.all, ∀ w ∈ e.head, ' ' ∉ w := by decide +kernel
  exact h e e.mem_all

/-- No command's head starts another command's. -/
theorem Encoder.head_unique {e e' : Encoder} (h : e.head <+: e'.head) : e = e' := by
  have hall : ∀ e ∈ Encoder.all, ∀ e' ∈ Encoder.all, e.head.isPrefixOf e'.head → e = e' := by
    decide +kernel
  exact hall e e.mem_all e' e'.mem_all (List.isPrefixOf_iff_prefix.mpr h)

theorem Encoder.pieces_eq {e e' : Encoder} {a : e.Args} {a' : e'.Args} {m m' : Command}
    (h : e.encode a = .ok m) (h' : e'.encode a' = .ok m') (heq : m.payload = m'.payload) :
    e.head ++ pieces ' ' (e.fields a) = e'.head ++ pieces ' ' (e'.fields a') := by
  rw [e.payload_eq a h, e'.payload_eq a' h'] at heq
  have hp := pieces_eq_of_intercalate_eq (by cases e <;> exact List.cons_ne_nil _ _)
    (by cases e' <;> exact List.cons_ne_nil _ _) (encodeUtf8_injective heq)
  rwa [pieces_append, pieces_append, pieces_of_free e.head_free, pieces_of_free e'.head_free] at hp

/-- Equal payloads come from one encoder, whatever the strings. -/
theorem Encoder.eq_of_payload_eq {e e' : Encoder} {a : e.Args} {a' : e'.Args} {m m' : Command}
    (h : e.encode a = .ok m) (h' : e'.encode a' = .ok m') (heq : m.payload = m'.payload) :
    e = e' := by
  have hp := Encoder.pieces_eq h h' heq
  have h₁ : e.head <+: e'.head ++ pieces ' ' (e'.fields a') := hp ▸ List.prefix_append _ _
  rcases List.prefix_or_prefix_of_prefix h₁ (List.prefix_append e'.head _) with hle | hle
  · exact Encoder.head_unique hle
  · exact (Encoder.head_unique hle).symm

/-- The two normalisations: an empty HELLO token is none, an empty scan cursor is `'0'`. -/
def Encoder.normalise : (e : Encoder) → e.Args → e.Args
  | .hello, some [] => none
  | .hello, some (c :: cs) => some (c :: cs)
  | .hello, none => none
  | .scan, (count, cursor) => (count, Commands.cursorOrInitial cursor)
  | .pscan, (pfx, count, cursor) => (pfx, count, Commands.cursorOrInitial cursor)
  | .incr, a | .incrby, a | .get, a | .watch, a | .delete, a | .mdelete, a
  | .rlimitFixedWindow, a | .rlimitSlidingWindow, a | .rlimitTokenBucket, a
  | .quotaSet, a | .quotaSetN, a | .quotaAcquire, a | .quotaAcquireN, a | .quotaAcquireLease, a
  | .quotaRelease, a | .quotaDelete, a | .quotaInfo, a | .flushdb, a | .truncate, a
  | .inspect, a | .stream, a | .pstream, a | .qstream, a | .qpstream, a => a

/-- Two calls of a command with a name, a client id and an optional ttl cannot run together: no
string holds a space, or the ttl is given in both or in neither and the names, or the client ids,
hold none. -/
def TtlApart (name name' clientId clientId' : Str) (ttl ttl' : Option ℤ) : Prop :=
  ((' ' ∉ name ∧ ' ' ∉ name') ∧ (' ' ∉ clientId ∧ ' ' ∉ clientId')) ∨
    (ttl.isSome = ttl'.isSome ∧
      ((' ' ∉ name ∧ ' ' ∉ name') ∨ (' ' ∉ clientId ∧ ' ' ∉ clientId')))

/-- Where two calls of a command cannot run together. Only the commands with more than one free
string ask for anything. -/
def Encoder.Apart : (e : Encoder) → e.Args → e.Args → Prop
  | .mdelete, keys, keys' => (∀ key ∈ keys, ' ' ∉ key.key) ∧ ∀ key ∈ keys', ' ' ∉ key.key
  | .quotaAcquire, (name, _, clientId, ttl), (name', _, clientId', ttl') =>
    TtlApart name name' clientId clientId' ttl ttl'
  | .quotaAcquireN, (name, clientId, ttl), (name', clientId', ttl') =>
    TtlApart name name' clientId clientId' ttl ttl'
  | .quotaAcquireLease, (name, _, _, clientId, ttl), (name', _, _, clientId', ttl') =>
    TtlApart name name' clientId clientId' ttl ttl'
  | .quotaRelease, (name, clientId), (name', clientId') =>
    (' ' ∉ name ∧ ' ' ∉ name') ∨ (' ' ∉ clientId ∧ ' ' ∉ clientId')
  | .pscan, (pfx, _, cursor), (pfx', _, cursor') =>
    (' ' ∉ pfx ∧ ' ' ∉ pfx') ∨ (' ' ∉ cursor ∧ ' ' ∉ cursor')
  | _, _, _ => True

theorem ttlField_injective : Function.Injective ttlField := by
  intro t t' h
  cases t <;> cases t'
  · rfl
  · cases h
  · cases h
  · exact congrArg some (decimal_injective (List.cons.inj h).1)

theorem ttlField_free (ttl : Option ℤ) : ∀ f ∈ ttlField ttl, ' ' ∉ f := by
  cases ttl with
  | none => intro f hf; cases hf
  | some t => intro f hf; exact List.mem_singleton.mp hf ▸ space_not_mem_decimal t

theorem length_ttlField {ttl ttl' : Option ℤ} (h : ttl.isSome = ttl'.isSome) :
    (ttlField ttl).length = (ttlField ttl').length := by
  cases ttl <;> cases ttl' <;> first | rfl | cases h

theorem keyFields_injective : Function.Injective fun keys : List CappingKey =>
    keys.flatMap fun key => [key.key, decimal key.capping] := by
  intro ks ks' h
  induction ks generalizing ks' with
  | nil => cases ks' with
    | nil => rfl
    | cons k ks' => cases h
  | cons k ks ih => cases ks' with
    | nil => cases h
    | cons k' ks' =>
      obtain ⟨h₁, h₂⟩ := List.cons.inj h
      obtain ⟨h₂, h₃⟩ := List.cons.inj h₂
      have hk : k = k' := by
        cases k; cases k'
        exact CappingKey.mk.injEq .. |>.mpr ⟨h₁, decimal_injective h₂⟩
      rw [hk, ih h₃]

theorem keyFields_free {keys : List CappingKey} (h : ∀ key ∈ keys, ' ' ∉ key.key) :
    ∀ f ∈ keys.flatMap fun key => [key.key, decimal key.capping], ' ' ∉ f := by
  intro f hf
  obtain ⟨key, hkey, hf⟩ := List.mem_flatMap.mp hf
  rcases List.mem_pair.mp hf with rfl | rfl
  · exact h key hkey
  · exact space_not_mem_decimal _

theorem cursorOrInitial_free {cursor : Str} (h : ' ' ∉ cursor) :
    ' ' ∉ Commands.cursorOrInitial cursor := by
  unfold Commands.cursorOrInitial
  split
  · decide
  · exact h

theorem numbers_free (ns : List ℤ) : ∀ f ∈ ns.map decimal, ' ' ∉ f := by
  intro f hf
  obtain ⟨n, -, rfl⟩ := List.mem_map.mp hf
  exact space_not_mem_decimal n

/-- One free string followed by numbers. -/
theorem string_numbers_unique (s s' : Str) (ns ns' : List ℤ) (hlen : ns.length = ns'.length)
    (h : pieces ' ' (s :: ns.map decimal) = pieces ' ' (s' :: ns'.map decimal)) :
    s = s' ∧ ns = ns' := by
  obtain ⟨hs, hns⟩ := first_unique (numbers_free ns) (numbers_free ns') (by simpa using hlen) h
  exact ⟨hs, decimal_injective.list_map hns⟩

/-- A name, numbers, a client id and an optional ttl. -/
theorem name_client_ttl_unique {name name' clientId clientId' : Str} (ns ns' : List ℤ)
    {ttl ttl' : Option ℤ} (hlen : ns.length = ns'.length)
    (hapart : TtlApart name name' clientId clientId' ttl ttl')
    (h : pieces ' ' (name :: ns.map decimal ++ clientId :: ttlField ttl) =
      pieces ' ' (name' :: ns'.map decimal ++ clientId' :: ttlField ttl')) :
    name = name' ∧ ns = ns' ∧ clientId = clientId' ∧ ttl = ttl' := by
  have hhead : ∀ (s : Str) (ns : List ℤ), ' ' ∉ s → ∀ f ∈ s :: ns.map decimal, ' ' ∉ f := by
    intro s ns hs f hf
    rcases List.mem_cons.mp hf with rfl | hf
    · exact hs
    · exact numbers_free ns f hf
  have htail : ∀ (s : Str) (ttl : Option ℤ), ' ' ∉ s → ∀ f ∈ s :: ttlField ttl, ' ' ∉ f := by
    intro s ttl hs f hf
    rcases List.mem_cons.mp hf with rfl | hf
    · exact hs
    · exact ttlField_free ttl f hf
  have hl : (name :: ns.map decimal).length = (name' :: ns'.map decimal).length := by
    simpa using hlen
  have hparts : name :: ns.map decimal = name' :: ns'.map decimal ∧
      clientId :: ttlField ttl = clientId' :: ttlField ttl' := by
    rcases hapart with ⟨⟨hn, hn'⟩, hc, hc'⟩ | ⟨htt, ⟨hn, hn'⟩ | ⟨hc, hc'⟩⟩
    · -- no field falls apart
      simp only [pieces_append, pieces_of_free (hhead _ _ hn), pieces_of_free (hhead _ _ hn'),
        pieces_of_free (htail _ _ hc), pieces_of_free (htail _ _ hc')] at h
      exact List.append_inj h hl
    -- the client is the field that may fall apart
    · obtain ⟨h₁, h₂, h₃⟩ := middle_unique (hhead _ ns hn) (hhead _ ns' hn') (ttlField_free ttl)
        (ttlField_free ttl') hl (length_ttlField htt) h
      exact ⟨h₁, by rw [h₂, h₃]⟩
    · -- the name is the field that may fall apart
      have hfree : ∀ (ns : List ℤ) (s : Str) (ttl : Option ℤ), ' ' ∉ s →
          ∀ f ∈ ns.map decimal ++ s :: ttlField ttl, ' ' ∉ f := by
        intro ns s ttl hs f hf
        rcases List.mem_append.mp hf with hf | hf
        · exact numbers_free ns f hf
        · exact htail s ttl hs f hf
      have hlt : (ns.map decimal ++ clientId :: ttlField ttl).length =
          (ns'.map decimal ++ clientId' :: ttlField ttl').length := by
        simp [hlen, length_ttlField htt]
      obtain ⟨h₂, h₃⟩ := first_unique (hfree ns _ ttl hc) (hfree ns' _ ttl' hc') hlt h
      obtain ⟨h₄, h₅⟩ := List.append_inj h₃ (by simpa using hlen)
      exact ⟨by rw [h₂, h₄], h₅⟩
  obtain ⟨h₁, h₂⟩ := hparts
  obtain ⟨hname, hns⟩ := List.cons.inj h₁
  obtain ⟨hclient, httl⟩ := List.cons.inj h₂
  exact ⟨hname, decimal_injective.list_map hns, hclient, ttlField_injective httl⟩

/-- The command's name is a field too: a token is what follows `AUTH`. -/
theorem hello_unique {token token' : Option Str}
    (h : pieces ' ' (Encoder.hello.fields token) = pieces ' ' (Encoder.hello.fields token')) :
    Encoder.hello.normalise token = Encoder.hello.normalise token' := by
  have hnil : ∀ c cs, pieces ' ' [decimal protocolVersion] ≠
      pieces ' ' [decimal protocolVersion, "AUTH".toList, c :: cs] := by
    intro c cs hp
    have hl := congrArg List.length hp
    simp only [pieces_cons, pieces_nil, List.length_append, List.length_nil] at hl
    have := one_le_length_splitOn (d := ' ') "AUTH".toList
    have := one_le_length_splitOn (d := ' ') (c :: cs)
    omega
  rcases token with _ | _ | ⟨c, cs⟩ <;> rcases token' with _ | _ | ⟨c', cs'⟩
  case some.cons.some.cons =>
    have hfree : ∀ f ∈ [decimal protocolVersion, "AUTH".toList], ' ' ∉ f := by decide +kernel
    obtain ⟨-, ht, -⟩ := middle_unique hfree hfree (List.forall_mem_nil _) (List.forall_mem_nil _)
      rfl rfl h
    exact congrArg some ht
  case none.some.cons | some.nil.some.cons => exact absurd h (hnil c' cs')
  case some.cons.none | some.cons.some.nil => exact absurd h.symm (hnil c cs)
  all_goals rfl

theorem Encoder.fields_unique (e : Encoder) {a a' : e.Args} (hapart : e.Apart a a')
    (h : pieces ' ' (e.fields a) = pieces ' ' (e.fields a')) : e.normalise a = e.normalise a' := by
  cases e with
  | hello => exact hello_unique h
  | incr | get | watch | delete =>
    obtain ⟨key, w⟩ := a
    obtain ⟨key', w'⟩ := a'
    obtain ⟨rfl, hn⟩ := string_numbers_unique key key' [w] [w'] rfl h
    cases hn
    rfl
  | incrby =>
    obtain ⟨⟨key, w⟩, value⟩ := a
    obtain ⟨⟨key', w'⟩, value'⟩ := a'
    obtain ⟨rfl, hn⟩ := string_numbers_unique key key' [w, value] [w', value'] rfl h
    cases hn
    rfl
  -- the keys have no separator in them, which is what `Apart` asks for
  | mdelete =>
    rw [fields, pieces_of_free (keyFields_free hapart.1), fields,
      pieces_of_free (keyFields_free hapart.2)] at h
    exact keyFields_injective h
  | rlimitFixedWindow | rlimitSlidingWindow =>
    obtain ⟨⟨key, w⟩, limit⟩ := a
    obtain ⟨⟨key', w'⟩, limit'⟩ := a'
    obtain ⟨rfl, hn⟩ := string_numbers_unique key key' [limit, w] [limit', w'] rfl h
    cases hn
    rfl
  | rlimitTokenBucket =>
    obtain ⟨⟨key, w⟩, capacity, refill⟩ := a
    obtain ⟨⟨key', w'⟩, capacity', refill'⟩ := a'
    obtain ⟨rfl, hn⟩ := string_numbers_unique key key' [capacity, refill, w]
      [capacity', refill', w'] rfl h
    cases hn
    rfl
  | quotaSet =>
    obtain ⟨name, limit⟩ := a
    obtain ⟨name', limit'⟩ := a'
    obtain ⟨rfl, hn⟩ := string_numbers_unique name name' [limit] [limit'] rfl h
    cases hn
    rfl
  | quotaSetN =>
    obtain ⟨name, limit, clients⟩ := a
    obtain ⟨name', limit', clients'⟩ := a'
    obtain ⟨rfl, hn⟩ := string_numbers_unique name name' [limit, clients] [limit', clients'] rfl h
    cases hn
    rfl
  -- an optional last part: the calls are told apart only as far as `TtlApart` says
  | quotaAcquire =>
    obtain ⟨name, amount, clientId, ttl⟩ := a
    obtain ⟨name', amount', clientId', ttl'⟩ := a'
    obtain ⟨rfl, hn, rfl, rfl⟩ := name_client_ttl_unique [amount] [amount'] rfl hapart h
    cases hn
    rfl
  | quotaAcquireN =>
    obtain ⟨name, clientId, ttl⟩ := a
    obtain ⟨name', clientId', ttl'⟩ := a'
    obtain ⟨rfl, -, rfl, rfl⟩ := name_client_ttl_unique [] [] rfl hapart h
    rfl
  | quotaAcquireLease =>
    obtain ⟨name, limit, amount, clientId, ttl⟩ := a
    obtain ⟨name', limit', amount', clientId', ttl'⟩ := a'
    obtain ⟨rfl, hn, rfl, rfl⟩ := name_client_ttl_unique [limit, amount] [limit', amount'] rfl
      hapart h
    cases hn
    rfl
  | quotaRelease =>
    obtain ⟨name, clientId⟩ := a
    obtain ⟨name', clientId'⟩ := a'
    obtain ⟨rfl, -, rfl, -⟩ := @name_client_ttl_unique name name' clientId clientId' [] [] none none
      rfl (Or.inr ⟨rfl, hapart⟩) h
    rfl
  | quotaDelete | quotaInfo | pstream | qpstream =>
    exact (string_numbers_unique a a' [] [] rfl h).1
  | scan =>
    obtain ⟨count, cursor⟩ := a
    obtain ⟨count', cursor'⟩ := a'
    obtain ⟨hc, hn⟩ := string_numbers_unique _ _ [count] [count'] rfl h
    cases hn
    exact congrArg (Prod.mk count) hc
  | pscan =>
    obtain ⟨pfx, count, cursor⟩ := a
    obtain ⟨pfx', count', cursor'⟩ := a'
    have hp : TtlApart pfx pfx' (Commands.cursorOrInitial cursor) (Commands.cursorOrInitial cursor')
        (some count) (some count') :=
      Or.inr ⟨rfl, hapart.imp_right fun hc => ⟨cursorOrInitial_free hc.1, cursorOrInitial_free hc.2⟩⟩
    obtain ⟨rfl, -, hc, hn⟩ := name_client_ttl_unique [] [] rfl hp h
    cases hn
    exact congrArg (fun c => (pfx, count, c)) hc
  | inspect =>
    have hv : ∀ s s' : InspectSection, pieces ' ' (Encoder.inspect.fields s) =
        pieces ' ' (Encoder.inspect.fields s') → s = s' := by
      intro s s'
      cases s <;> cases s' <;> first | exact fun _ => rfl | decide +kernel
    exact hv a a' h
  | flushdb | truncate | stream | qstream => rfl

def Call.normalise (c : Call) : Call := ⟨c.1, c.1.normalise c.2⟩

/-- Equal payloads come from one command and, where its strings cannot run together, from the same
arguments up to the two normalisations. -/
theorem payload_determines_call {c c' : Call} {m m' : Command} (h : c.encode = .ok m)
    (h' : c'.encode = .ok m') (heq : m.payload = m'.payload) :
    ∃ (e : Encoder) (a a' : e.Args), c = ⟨e, a⟩ ∧ c' = ⟨e, a'⟩ ∧
      (e.Apart a a' → c.normalise = c'.normalise) := by
  obtain ⟨e, a⟩ := c
  obtain ⟨e', a'⟩ := c'
  obtain rfl := Encoder.eq_of_payload_eq h h' heq
  refine ⟨e, a, a', rfl, rfl, fun hapart => ?_⟩
  have hfields := List.append_cancel_left (Encoder.pieces_eq h h' heq)
  exact congrArg (Sigma.mk e) (e.fields_unique hapart hfields)

/-- An empty cursor and `'0'` are one call. -/
theorem scan_cursor_initial_or_empty :
    Call.normalise ⟨.scan, 10, []⟩ = Call.normalise ⟨.scan, 10, ['0']⟩ := by
  have hm : ∀ cursor ∈ [[], ['0']], Call.encode ⟨.scan, 10, cursor⟩ =
      .ok ⟨encodeUtf8 "SCAN 0 10".toList, true⟩ := by decide
  obtain ⟨e, a, a', hc, hc', hn⟩ :=
    payload_determines_call (hm [] (by decide)) (hm ['0'] (by decide)) rfl
  obtain ⟨rfl, ha⟩ := Sigma.mk.inj hc
  obtain rfl := eq_of_heq ha
  exact hn trivial

/-- A space in a client id puts a ttl into the command. -/
theorem client_id_injects_ttl : ¬ ∀ (c c' : Call) (m m' : Command), c.encode = .ok m →
    c'.encode = .ok m' → m.payload = m'.payload → c.normalise = c'.normalise := by
  intro hall
  have hcall := hall ⟨.quotaAcquire, "plan".toList, 4, "c1 30".toList, none⟩
    ⟨.quotaAcquire, "plan".toList, 4, "c1".toList, some 30⟩
    ⟨encodeUtf8 "QUOTA ACQ plan 4 c1 30".toList, false⟩
    ⟨encodeUtf8 "QUOTA ACQ plan 4 c1 30".toList, false⟩ (by decide) (by decide) rfl
  have hargs := eq_of_heq (Sigma.mk.inj hcall).2
  exact absurd (congrArg (fun a : Encoder.quotaAcquire.Args => a.2.2.2) hargs) (by decide)

end FqClient
