import VaultplaneGateway.YamlReading
import VaultplaneGateway.KeyRecords

/-!
# Keys made offline

Without an endpoint the command line tool makes a key itself and prints a record to be
pasted into the configuration file. The record is put together by hand: strings go
between double quotes as they are, and the expiry is not passed on.

It is compared with the key that the running gateway would have created from the same
arguments. The file is read by another crate: its reader is given, with what it does with
the entries of a list.
-/
namespace VaultplaneGateway.OfflineKeys
open WireFormats KeyRecords ProxyPipeline DerivedDecoding ConfigDecoding ConfigDocuments YamlEntries

/-- The digits of base 64 that are safe in a URL. -/
def base64Digit (n : ℕ) : Char :=
  "ABCDEFGHIJKLMNOPQRSTUVWXYZabcdefghijklmnopqrstuvwxyz0123456789-_".toList.getD n 'A'

/-- Base 64 without padding. -/
def base64Url : Bytes → List Char
  | a :: b :: c :: rest =>
      let n := a.toNat * 65536 + b.toNat * 256 + c.toNat
      base64Digit (n / 262144) :: base64Digit (n / 4096 % 64) :: base64Digit (n / 64 % 64) ::
        base64Digit (n % 64) :: base64Url rest
  | [a, b] =>
      let n := a.toNat * 65536 + b.toNat * 256
      [base64Digit (n / 262144), base64Digit (n / 4096 % 64), base64Digit (n / 64 % 64)]
  | [a] => [base64Digit (a.toNat / 4), base64Digit (a.toNat % 4 * 16)]
  | [] => []

structure GeneratedKey where
  token : String
  id : String
  hash : String
  deriving DecidableEq, Repr

/-- The entropy of the system is given. -/
def generateKey (lib : Externals) (buf : Bytes) : GeneratedKey :=
  let body := base64Url buf
  let token := "vp_" ++ String.ofList body
  ⟨token, "vp_" ++ String.ofList (body.take 12), hashToken lib token⟩

example : (generateKey ⟨id, fun _ => none, fun _ _ => none, fun _ => none⟩ ((List.range 32).map UInt8.ofNat)).id =
    "vp_AAECAwQFBgcI" := by decide +kernel

/-- A 64-bit float: a number, or one of the values that are none. -/
inductive Float64 where
  | finite (q : ℚ)
  | infinite (negative : Bool)
  | nan
  deriving DecidableEq, Repr

structure Spend where
  amountUsd : Float64
  period : Period
  deriving DecidableEq, Repr

/-- The arguments of `key create`. -/
structure CreateArgs where
  team : String
  app : String
  env : String
  models : List String
  rps : Option UInt32
  spendLimit : Option Spend
  expiresAt : Option String
  deriving DecidableEq, Repr

/-- The reader of the configuration file, how it resolves a plain scalar, what it takes a number for,
and the decimal text that is printed for one. -/
structure Yaml where
  load : String → Option Json
  resolve : String → Json
  rate : Number → ℚ
  display : ℚ → String

def periodLabel : Period → String
  | .day => "day"
  | .week => "week"
  | .month => "month"

def displayFloat (y : Yaml) : Float64 → String
  | .finite q => y.display q
  | .infinite negative => if negative then "-inf" else "inf"
  | .nan => "NaN"

def displayCount (n : UInt32) : String := String.ofList (Nat.toDigits 10 n.toNat)

/-- What is printed before the record. -/
def preamble (key : GeneratedKey) : List String :=
  ["Token: " ++ key.token, "Key id: " ++ key.id, "",
    "Save the token now; it cannot be recovered (the gateway only stores the hash).", "",
    "Add this entry to the gateway's auth.keys list:", ""]

/-- The printed lines. -/
def keyCreateOffline (y : Yaml) (key : GeneratedKey) (team app env : String)
    (models : List String) (rps : Option UInt32) (spendLimit : Option Spend) : List String :=
  preamble key ++
    ["  - id: \"" ++ key.id ++ "\"", "    hash: \"" ++ key.hash ++ "\"",
      "    team: \"" ++ team ++ "\"", "    app: \"" ++ app ++ "\"", "    env: \"" ++ env ++ "\""] ++
    (if models.isEmpty then ["    models: []"]
      else ["    models: [" ++ ", ".intercalate (models.map fun m => "\"" ++ m ++ "\"") ++ "]"]) ++
    (match rps with
      | some rps => ["    rate_limit_rps: " ++ displayCount rps]
      | none => []) ++
    match spendLimit with
    | some limit => ["    spend_limit:", "      amount_usd: " ++ displayFloat y limit.amountUsd,
        "      period: " ++ periodLabel limit.period]
    | none => []

/-- `main` without an endpoint: the expiry is not an argument of the record. -/
def createOffline (y : Yaml) (key : GeneratedKey) (args : CreateArgs) : List String :=
  keyCreateOffline y key args.team args.app args.env args.models args.rps args.spendLimit

/-- The record among the printed lines. -/
def record (y : Yaml) (key : GeneratedKey) (args : CreateArgs) : List String :=
  (createOffline y key args).drop (preamble key).length

def members (y : Yaml) (key : GeneratedKey) (args : CreateArgs) : List (String × Node) :=
  [("id", .quoted key.id), ("hash", .quoted key.hash), ("team", .quoted args.team),
    ("app", .quoted args.app), ("env", .quoted args.env), ("models", .quotedList args.models)] ++
    (args.rps.map fun rps => ("rate_limit_rps", Node.plain (displayCount rps))).toList ++
    (args.spendLimit.map fun limit =>
      ("spend_limit", Node.block [("amount_usd", displayFloat y limit.amountUsd),
        ("period", periodLabel limit.period)])).toList

/-- What is printed is the entry with these members. -/
theorem record_eq (y : Yaml) (key : GeneratedKey) (args : CreateArgs) :
    record y key args = entryLines (members y key args) := by
  obtain ⟨team, app, env, models, rps, spendLimit, expiresAt⟩ := args
  cases models <;> cases rps <;> cases spendLimit <;> rfl

def period : Json → Option Period
  | .string "day" => some .day
  | .string "week" => some .week
  | .string "month" => some .month
  | _ => none

def spendLimit (rate : Number → ℚ) (v : Json) : Option SpendLimit := do
  let f ← fieldsOf 2 v
  let amountUsd ← f.required 0 "amount_usd" (float rate)
  let period ← f.required 1 "period" period
  pure ⟨amountUsd, period⟩

def virtualKey (rate : Number → ℚ) (v : Json) : Option VirtualKey := do
  let f ← fieldsOf 9 v
  let id ← f.defaulted 0 "id" "" Json.asStr
  let hash ← f.defaulted 1 "hash" "" Json.asStr
  let team ← f.defaulted 2 "team" "" Json.asStr
  let app ← f.defaulted 3 "app" "" Json.asStr
  let env ← f.defaulted 4 "env" "" Json.asStr
  let models ← f.defaulted 5 "models" [] (vec Json.asStr)
  let rateLimitRps ← f.defaulted 6 "rate_limit_rps" none (nullable u32)
  let limit ← f.defaulted 7 "spend_limit" none (nullable (spendLimit rate))
  let expiresAt ← f.defaulted 8 "expires_at" none (nullable Json.asStr)
  pure ⟨id, hash, team, app, env, models, rateLimitRps, limit, expiresAt⟩

/-- The keys of a configuration file. -/
def loadKeys (y : Yaml) (text : String) : Option (List VirtualKey) := do
  let v ← y.load text
  let keys ← v.path ["auth", "keys"]
  vec (virtualKey y.rate) keys

/-- The body of `POST /admin/keys`. -/
structure CreateKeyRequest where
  team : String
  app : String
  env : String
  models : List String
  rateLimitRps : Option UInt32
  spendLimit : Option SpendLimit
  expiresAt : Option String

/-- The key that the gateway makes of it. -/
def createKey (key : GeneratedKey) (body : CreateKeyRequest) : VirtualKey where
  id := key.id
  hash := key.hash
  team := body.team
  app := body.app
  env := body.env
  models := body.models
  rateLimitRps := body.rateLimitRps
  spendLimit := body.spendLimit
  expiresAt := body.expiresAt

/-- A limit is sent only if its amount is a number. -/
def SameLimit : Option Spend → Option SpendLimit → Prop
  | none, limit => limit = none
  | some ⟨.finite q, period⟩, limit => limit = some ⟨q, period⟩
  | some _, _ => False

/-- The record, pasted into a file, is the key that would have been created online. -/
def RoundTrips (y : Yaml) (key : GeneratedKey) (args : CreateArgs) : Prop :=
  ∃ limit, SameLimit args.spendLimit limit ∧
    loadKeys y (document "auth" "keys" (record y key args)) =
      some [createKey key ⟨args.team, args.app, args.env, args.models, args.rps, limit,
        args.expiresAt⟩]

/-- What is known of the reader: it reads entries, whole numbers, words as strings; a number is
printed as a decimal. -/
structure Lawful (y : Yaml) : Prop where
  reads : ReadsEntries y.load y.resolve
  counts : ∀ n : UInt32, y.resolve (displayCount n) = count n
  words : ∀ p : Period, y.resolve (periodLabel p) = .string (periodLabel p)
  decimals : ∀ q : ℚ, plainText (y.display q) = true

/-- The strings of the arguments. -/
def CreateArgs.strings (args : CreateArgs) : List String :=
  [args.team, args.app, args.env] ++ args.models

/-- The amount is a number, and its text is read as that number. -/
def AmountReads (y : Yaml) (limit : Spend) : Prop :=
  ∃ q n, limit.amountUsd = .finite q ∧ y.resolve (y.display q) = .number n ∧ y.rate n = q

/-- What the printed record can express: there is no expiry, no string needs an escape, and the
amount is read back. -/
structure Expressible (y : Yaml) (args : CreateArgs) : Prop where
  expiry : args.expiresAt = none
  strings : ∀ s ∈ args.strings, ∀ c ∈ s.toList, ordinary c = true
  amount : ∀ limit ∈ args.spendLimit, AmountReads y limit

theorem ordinary_base64Digit (n : ℕ) : ordinary (base64Digit n) = true := by
  unfold base64Digit
  by_cases h : n < 64
  · have hall : (List.range 64).all (fun n => ordinary (base64Digit n)) = true := by decide +kernel
    exact List.all_eq_true.mp hall n (List.mem_range.mpr h)
  · rw [List.getD_eq_getElem?_getD, List.getElem?_eq_none]
    · decide
    · exact Nat.le_of_not_lt h

theorem ordinary_base64Url (buf : Bytes) : ∀ c ∈ base64Url buf, ordinary c = true := by
  fun_induction base64Url buf with
  | case1 a b c rest n ih =>
      intro d hd
      simp only [List.mem_cons] at hd
      rcases hd with rfl | rfl | rfl | rfl | hd
      · exact ordinary_base64Digit _
      · exact ordinary_base64Digit _
      · exact ordinary_base64Digit _
      · exact ordinary_base64Digit _
      · exact ih d hd
  | case2 a b n =>
      intro d hd
      simp only [List.mem_cons, List.not_mem_nil, or_false] at hd
      rcases hd with rfl | rfl | rfl <;> exact ordinary_base64Digit _
  | case3 a =>
      intro d hd
      simp only [List.mem_cons, List.not_mem_nil, or_false] at hd
      rcases hd with rfl | rfl <;> exact ordinary_base64Digit _
  | case4 => exact fun d hd => absurd hd List.not_mem_nil

/-- What is generated needs no escapes. -/
theorem generated_ordinary (lib : Externals) (buf : Bytes) :
    unescape (generateKey lib buf).id = some (generateKey lib buf).id ∧
      unescape (generateKey lib buf).hash = some (generateKey lib buf).hash := by
  rw [unescape_self_iff, unescape_self_iff]
  constructor
  · intro c hc
    have hid : (generateKey lib buf).id = "vp_" ++ String.ofList ((base64Url buf).take 12) := rfl
    rw [hid, String.toList_append, List.mem_append] at hc
    rcases hc with hc | hc
    · have hall : "vp_".toList.all ordinary = true := by decide
      exact List.all_eq_true.mp hall c hc
    · rw [String.toList_ofList] at hc
      exact ordinary_base64Url buf c (List.mem_of_mem_take hc)
  · intro c hc
    have hhex : ∀ n : Fin 16, ordinary (hexDigit n) = true := by decide
    have hhash : (generateKey lib buf).hash = hexEncode (lib.sha256 (asBytes
        (generateKey lib buf).token)) := rfl
    rw [hhash, hexEncode, String.toList_ofList, List.mem_flatMap] at hc
    obtain ⟨b, -, hc⟩ := hc
    simp only [List.mem_cons, List.not_mem_nil, or_false] at hc
    rcases hc with rfl | rfl <;> exact hhex _

section Loading

variable {y : Yaml} {key : GeneratedKey} {args : CreateArgs} {values : List (String × Json)}
  {name : String}

theorem isDigit_of_mem_digits {n : ℕ} {c : Char} (h : c ∈ Nat.toDigits 10 n) : c.isDigit = true :=
  Nat.isDigit_of_mem_toDigits (by decide) (by decide) h

/-- The digits of a number are a plain scalar. -/
theorem plainText_digits (n : ℕ) : plainText (String.ofList (Nat.toDigits 10 n)) = true := by
  have hne : String.ofList (Nat.toDigits 10 n) ≠ "" := by
    intro h
    have hlist := congrArg String.toList h
    rw [String.toList_ofList] at hlist
    exact Nat.toDigits_ne_nil hlist
  have hdigits : ∀ c ∈ (String.ofList (Nat.toDigits 10 n)).toList, c.isDigit = true := by
    intro c hc
    rw [String.toList_ofList] at hc
    exact isDigit_of_mem_digits hc
  have hdash : String.ofList (Nat.toDigits 10 n) ≠ "-" := by
    intro h
    exact absurd (hdigits '-' (by rw [h]; decide)) (by decide)
  unfold plainText
  rw [Bool.and_eq_true, Bool.and_eq_true, bne_iff_ne, bne_iff_ne, List.all_eq_true]
  refine ⟨⟨hne, hdash⟩, fun c hc => ?_⟩
  rw [Char.isAlphanum, hdigits c hc, Bool.or_true, Bool.true_or, Bool.true_or]

theorem plainText_displayFloat (hy : Lawful y) (amount : Float64) :
    plainText (displayFloat y amount) = true := by
  cases amount with
  | finite q => exact hy.decimals q
  | infinite negative =>
      cases negative with
      | false => exact (by decide : plainText "inf" = true)
      | true => exact (by decide : plainText "-inf" = true)
  | nan => exact (by decide : plainText "NaN" = true)

theorem plainText_periodLabel (p : Period) : plainText (periodLabel p) = true := by
  cases p <;> decide

/-- The names of all members a record may have. -/
def memberNames : List String :=
  ["id", "hash", "team", "app", "env", "models", "rate_limit_rps", "spend_limit"]

theorem members_names (y : Yaml) (key : GeneratedKey) (args : CreateArgs) :
    ((members y key args).map Prod.fst).Sublist memberNames := by
  obtain ⟨team, app, env, models, rps, spendLimit, expiresAt⟩ := args
  have hlast : ∀ limit : Option Spend, (((limit.map fun limit => ("spend_limit",
      Node.block [("amount_usd", displayFloat y limit.amountUsd),
        ("period", periodLabel limit.period)])).toList).map Prod.fst).Sublist ["spend_limit"] := by
    intro limit
    cases limit with
    | none => exact List.nil_sublist _
    | some limit => exact List.Sublist.refl _
  have hrate : ∀ rps : Option UInt32, (((rps.map fun rps => ("rate_limit_rps",
      Node.plain (displayCount rps))).toList).map Prod.fst).Sublist ["rate_limit_rps"] := by
    intro rps
    cases rps with
    | none => exact List.nil_sublist _
    | some rps => exact List.Sublist.refl _
  rw [members, List.map_append, List.map_append]
  exact ((List.Sublist.refl _).append (hrate rps)).append (hlast spendLimit)

/-- The record is an entry that can be read if its strings stay between their quotes. -/
theorem members_wellFormed (hy : Lawful y) (hid : (unescape key.id).isSome = true)
    (hhash : (unescape key.hash).isSome = true)
    (hstrings : ∀ s ∈ args.strings, (unescape s).isSome = true) :
    YamlEntries.WellFormed (members y key args) := by
  have hteam := hstrings args.team (by simp [CreateArgs.strings])
  have happ := hstrings args.app (by simp [CreateArgs.strings])
  have henv := hstrings args.env (by simp [CreateArgs.strings])
  have hmodels : ∀ m ∈ args.models, (unescape m).isSome = true := fun m hm =>
    hstrings m (by simp [CreateArgs.strings, hm])
  have hnames := members_names y key args
  have hall : memberNames.all nameText = true := by decide +kernel
  refine ⟨List.cons_ne_nil _ _, fun m hm => ?_, hnames.nodup (by decide), fun m hm => ?_⟩
  · exact List.all_eq_true.mp hall m.1 (hnames.subset (List.mem_map_of_mem hm))
  · rw [members, List.mem_append, List.mem_append] at hm
    rcases hm with (hm | hm) | hm
    · simp only [List.mem_cons, List.not_mem_nil, or_false] at hm
      rcases hm with rfl | rfl | rfl | rfl | rfl | rfl
      · exact hid
      · exact hhash
      · exact hteam
      · exact happ
      · exact henv
      · exact hmodels
    · obtain ⟨rps, -, rfl⟩ := Option.map_eq_some_iff.mp (Option.mem_toList.mp hm)
      exact plainText_digits rps.toNat
    · obtain ⟨limit, -, rfl⟩ := Option.map_eq_some_iff.mp (Option.mem_toList.mp hm)
      have hdistinct : ["amount_usd", "period"].Nodup := by decide
      have hamount : nameText "amount_usd" = true := by decide
      have hperiod : nameText "period" = true := by decide
      refine ⟨List.cons_ne_nil _ _, hdistinct, fun n hn => ?_⟩
      simp only [List.mem_cons, List.not_mem_nil, or_false] at hn
      rcases hn with rfl | rfl
      · exact ⟨hamount, plainText_displayFloat hy limit.amountUsd⟩
      · exact ⟨hperiod, plainText_periodLabel limit.period⟩

/-- A member that is a quoted text. -/
theorem field_quoted {raw s : String}
    (h : Given values name (fun v node => Node.Means y.resolve v node) (some (.quoted raw)))
    (hs : unescape raw = some s) : structField values name = some (some (.string s)) := by
  obtain ⟨v, hv, hrel⟩ := h
  cases hrel with
  | some hmeans =>
      obtain ⟨t, ht, rfl⟩ := hmeans
      rw [hv, Option.some.inj (hs.symm.trans ht)]

theorem field_quotedList {raws ss : List String}
    (h : Given values name (fun v node => Node.Means y.resolve v node) (some (.quotedList raws)))
    (hss : raws.mapM unescape = some ss) :
    structField values name = some (some (.array (ss.map .string))) := by
  obtain ⟨v, hv, hrel⟩ := h
  cases hrel with
  | some hmeans =>
      obtain ⟨ts, hts, rfl⟩ := hmeans
      rw [hv, Option.some.inj (hss.symm.trans hts)]

theorem field_absent
    (h : Given values name (fun v node => Node.Means y.resolve v node) none) :
    structField values name = some none := by
  obtain ⟨v, hv, hrel⟩ := h
  cases hrel with
  | none => exact hv

theorem field_plain {text : String}
    (h : Given values name (fun v node => Node.Means y.resolve v node) (some (.plain text))) :
    structField values name = some (some (y.resolve text)) := by
  obtain ⟨v, hv, hrel⟩ := h
  cases hrel with
  | some hmeans =>
      rw [hv]
      exact congrArg _ (congrArg _ hmeans)

/-- The limit that is loaded for one that was printed. -/
def loadedLimit (y : Yaml) : Option Spend → Option (Option SpendLimit)
  | none => some none
  | some limit =>
      (float y.rate (y.resolve (displayFloat y limit.amountUsd))).map fun q =>
        some ⟨q, limit.period⟩

theorem field_spendLimit (hy : Lawful y) {limit : Spend}
    (h : Given values name (fun v node => Node.Means y.resolve v node)
      (some (.block [("amount_usd", displayFloat y limit.amountUsd),
        ("period", periodLabel limit.period)]))) :
    ∃ v, structField values name = some (some v) ∧
      nullable (spendLimit y.rate) v = loadedLimit y (some limit) := by
  obtain ⟨v, hv, hrel⟩ := h
  cases hrel with
  | @some v _ hmeans =>
      obtain ⟨fields, rfl, hfields⟩ := hmeans
      have hamount : structField fields "amount_usd" =
          some (some (y.resolve (displayFloat y limit.amountUsd))) := by
        obtain ⟨w, hw, hrel⟩ := hfields "amount_usd"
        cases hrel with
        | some heq => rw [hw, heq]
      have hperiod : structField fields "period" =
          some (some (.string (periodLabel limit.period))) := by
        obtain ⟨w, hw, hrel⟩ := hfields "period"
        cases hrel with
        | some heq => rw [hw, heq, hy.words]
      have hread : period (.string (periodLabel limit.period)) = some limit.period := by
        cases limit.period <;> rfl
      refine ⟨_, hv, ?_⟩
      simp only [nullable, spendLimit, fieldsOf, Fields.required, Fields.value, hamount, hperiod,
        hread, Option.bind_eq_bind, Option.bind_some, loadedLimit]
      cases float y.rate (y.resolve (displayFloat y limit.amountUsd)) <;> rfl

/-- The members of a record, looked up. -/
theorem lookup_members (y : Yaml) (key : GeneratedKey) (args : CreateArgs) :
    (members y key args).lookup "rate_limit_rps" =
        (args.rps.map fun rps => Node.plain (displayCount rps)) ∧
      (members y key args).lookup "spend_limit" =
        (args.spendLimit.map fun limit =>
          Node.block [("amount_usd", displayFloat y limit.amountUsd),
            ("period", periodLabel limit.period)]) ∧
      (members y key args).lookup "expires_at" = none := by
  obtain ⟨team, app, env, models, rps, spendLimit, expiresAt⟩ := args
  cases rps <;> cases spendLimit <;> exact ⟨rfl, rfl, rfl⟩

/-- A field of a record that was written is what is read from its value. -/
theorem defaulted_given {τ : Type} {default : τ} {read : Json → Option τ} {v : Json}
    (h : structField values name = some (some v)) (index : ℕ) :
    (Fields.named values).defaulted index name default read = read v := by
  simp only [Fields.defaulted, Fields.value, h, Option.bind_eq_bind, Option.bind_some]

theorem defaulted_absent {τ : Type} {default : τ} {read : Json → Option τ}
    (h : structField values name = some none) (index : ℕ) :
    (Fields.named values).defaulted index name default read = some default := by
  simp only [Fields.defaulted, Fields.value, h, Option.bind_eq_bind, Option.bind_some]

theorem read_rate (hy : Lawful y)
    (h : Given values name (fun v node => Node.Means y.resolve v node)
      (args.rps.map fun rps => Node.plain (displayCount rps))) (index : ℕ) :
    (Fields.named values).defaulted index name none (nullable u32) = some args.rps := by
  cases hrps : args.rps with
  | none =>
      rw [hrps] at h
      exact defaulted_absent (field_absent h) index
  | some rps =>
      rw [hrps] at h
      have hread : nullable u32 (count rps) = (u32 (count rps)).map some := rfl
      rw [defaulted_given (field_plain h), hy.counts, hread, u32_count, Option.map_some]

theorem read_spendLimit (hy : Lawful y)
    (h : Given values name (fun v node => Node.Means y.resolve v node)
      (args.spendLimit.map fun limit =>
        Node.block [("amount_usd", displayFloat y limit.amountUsd),
          ("period", periodLabel limit.period)])) (index : ℕ) :
    (Fields.named values).defaulted index name none (nullable (spendLimit y.rate)) =
      loadedLimit y args.spendLimit := by
  cases hlimit : args.spendLimit with
  | none =>
      rw [hlimit] at h
      exact defaulted_absent (field_absent h) index
  | some limit =>
      rw [hlimit] at h
      obtain ⟨v, hv, hread⟩ := field_spendLimit hy h
      rw [defaulted_given hv, hread]

/-- What the gateway makes of a record. The expiry is never given. -/
theorem virtualKey_values (hy : Lawful y)
    (h : ∀ name, Given values name (fun v node => Node.Means y.resolve v node)
      ((members y key args).lookup name))
    (hid : unescape key.id = some key.id) (hhash : unescape key.hash = some key.hash)
    {team app env : String} {models : List String} (hteam : unescape args.team = some team)
    (happ : unescape args.app = some app) (henv : unescape args.env = some env)
    (hmodels : args.models.mapM unescape = some models) :
    virtualKey y.rate (.object values) = (loadedLimit y args.spendLimit).map fun limit =>
      ⟨key.id, key.hash, team, app, env, models, args.rps, limit, none⟩ := by
  obtain ⟨hrate, hlimit, hexpiry⟩ := lookup_members y key args
  have hrateField := h "rate_limit_rps"
  have hlimitField := h "spend_limit"
  have hexpiryField := h "expires_at"
  rw [hrate] at hrateField
  rw [hlimit] at hlimitField
  rw [hexpiry] at hexpiryField
  have hstrings : vec Json.asStr (.array (models.map .string)) = some models := by
    rw [vec, List.mapM_map]
    exact mapM_self_iff.mpr fun m _ => rfl
  simp only [virtualKey, fieldsOf, Option.bind_eq_bind, Option.bind_some, Json.asStr,
    defaulted_given (field_quoted (h "id") hid), defaulted_given (field_quoted (h "hash") hhash),
    defaulted_given (field_quoted (h "team") hteam), defaulted_given (field_quoted (h "app") happ),
    defaulted_given (field_quoted (h "env") henv),
    defaulted_given (field_quotedList (h "models") hmodels), hstrings, read_rate hy hrateField,
    read_spendLimit hy hlimitField, defaulted_absent (field_absent hexpiryField)]
  cases loadedLimit y args.spendLimit <;> rfl

/-- The keys of a file with the record, if the strings stay between their quotes. -/
theorem loadKeys_record (hy : Lawful y) (lib : Externals) (buf : Bytes) {team app env : String}
    {models : List String} (hteam : unescape args.team = some team)
    (happ : unescape args.app = some app) (henv : unescape args.env = some env)
    (hmodels : args.models.mapM unescape = some models) :
    loadKeys y (document "auth" "keys" (record y (generateKey lib buf) args)) =
      (loadedLimit y args.spendLimit).map fun limit =>
        [⟨(generateKey lib buf).id, (generateKey lib buf).hash, team, app, env, models, args.rps,
          limit, none⟩] := by
  obtain ⟨hid, hhash⟩ := generated_ordinary lib buf
  have hstrings : ∀ s ∈ args.strings, (unescape s).isSome = true := by
    intro s hs
    rw [CreateArgs.strings, List.mem_append] at hs
    rcases hs with hs | hs
    · simp only [List.mem_cons, List.not_mem_nil, or_false] at hs
      rcases hs with rfl | rfl | rfl
      · exact Option.isSome_of_eq_some hteam
      · exact Option.isSome_of_eq_some happ
      · exact Option.isSome_of_eq_some henv
    · exact isSome_of_mapM hmodels s hs
  have hformed := members_wellFormed hy (Option.isSome_of_eq_some hid)
    (Option.isSome_of_eq_some hhash) hstrings
  obtain ⟨values, hload, hvalues⟩ := hy.reads "auth" "keys" _ (by decide) (by decide) hformed
  have hkey := virtualKey_values hy hvalues hid hhash hteam happ henv hmodels
  have hpath : Json.path (.object [("auth", .object [("keys", .array [.object values])])])
      ["auth", "keys"] = some (.array [.object values]) := rfl
  rw [loadKeys, record_eq, hload, Option.bind_eq_bind, Option.bind_some, hpath,
    Option.bind_some, vec, List.mapM_cons, List.mapM_nil, hkey]
  cases loadedLimit y args.spendLimit <;> rfl

theorem float_eq_some {rate : Number → ℚ} {v : Json} {q : ℚ} :
    float rate v = some q ↔ ∃ n, v = .number n ∧ rate n = q := by
  cases v <;> simp [float]

/-- A limit is loaded as it was given exactly if its amount is read as it was. -/
theorem sameLimit_loaded (y : Yaml) (given : Option Spend) :
    (∃ limit, SameLimit given limit ∧ loadedLimit y given = some limit) ↔
      ∀ limit ∈ given, AmountReads y limit := by
  match given with
  | none => exact ⟨fun _ limit hlimit => (nomatch hlimit), fun _ => ⟨none, rfl, rfl⟩⟩
  | some ⟨.finite q, period⟩ =>
      constructor
      · rintro ⟨limit, rfl, hload⟩ limit hlimit
        obtain rfl := Option.some.inj hlimit
        obtain ⟨r, hr, heq⟩ := Option.map_eq_some_iff.mp hload
        have hrq : r = q := congrArg SpendLimit.amountUsd (Option.some.inj heq)
        obtain ⟨n, hn, hrate⟩ := float_eq_some.mp hr
        exact ⟨q, n, rfl, hn, hrate.trans hrq⟩
      · intro h
        obtain ⟨r, n, hr, hn, hrate⟩ := h _ rfl
        obtain rfl := Float64.finite.inj hr
        refine ⟨some ⟨q, period⟩, rfl, ?_⟩
        rw [loadedLimit, displayFloat, float_eq_some.mpr ⟨n, hn, hrate⟩, Option.map_some]
  | some ⟨.infinite negative, period⟩ =>
      refine ⟨fun ⟨_, hsame, _⟩ => hsame.elim, fun h => ?_⟩
      obtain ⟨q, n, hq, -⟩ := h _ rfl
      cases hq
  | some ⟨.nan, period⟩ =>
      refine ⟨fun ⟨_, hsame, _⟩ => hsame.elim, fun h => ?_⟩
      obtain ⟨q, n, hq, -⟩ := h _ rfl
      cases hq

theorem strings_unescape_iff (args : CreateArgs) :
    (∀ s ∈ args.strings, ∀ c ∈ s.toList, ordinary c = true) ↔
      unescape args.team = some args.team ∧ unescape args.app = some args.app ∧
        unescape args.env = some args.env ∧ args.models.mapM unescape = some args.models := by
  simp only [← unescape_self_iff, CreateArgs.strings, List.cons_append, List.nil_append,
    List.forall_mem_cons, mapM_self_iff]

theorem roundTrips_of_expressible (hy : Lawful y) (lib : Externals) (buf : Bytes)
    (h : Expressible y args) : RoundTrips y (generateKey lib buf) args := by
  obtain ⟨hteam, happ, henv, hmodels⟩ := (strings_unescape_iff args).mp h.strings
  obtain ⟨limit, hsame, hlimit⟩ := (sameLimit_loaded y args.spendLimit).mpr h.amount
  refine ⟨limit, hsame, ?_⟩
  rw [loadKeys_record hy lib buf hteam happ henv hmodels, hlimit, Option.map_some, h.expiry]
  rfl

theorem expressible_of_roundTrips (hy : Lawful y) (lib : Externals) (buf : Bytes)
    (hstrings : ∀ s ∈ args.strings, (unescape s).isSome = true)
    (h : RoundTrips y (generateKey lib buf) args) : Expressible y args := by
  simp only [CreateArgs.strings, List.cons_append, List.nil_append, List.forall_mem_cons] at hstrings
  obtain ⟨hteam, happ, henv, hmodels⟩ := hstrings
  obtain ⟨team, hteam⟩ := Option.isSome_iff_exists.mp hteam
  obtain ⟨app, happ⟩ := Option.isSome_iff_exists.mp happ
  obtain ⟨env, henv⟩ := Option.isSome_iff_exists.mp henv
  obtain ⟨models, hmodels⟩ := exists_mapM hmodels
  obtain ⟨limit, hsame, hload⟩ := h
  rw [loadKeys_record hy lib buf hteam happ henv hmodels] at hload
  obtain ⟨loaded, hloaded, hkeys⟩ := Option.map_eq_some_iff.mp hload
  -- The two keys agree member by member.
  have hkey := (List.cons.inj hkeys).1
  rw [createKey, VirtualKey.mk.injEq] at hkey
  obtain ⟨-, -, rfl, rfl, rfl, rfl, -, rfl, hexpiry⟩ := hkey
  exact ⟨hexpiry.symm, (strings_unescape_iff args).mpr ⟨hteam, happ, henv, hmodels⟩,
    (sameLimit_loaded y args.spendLimit).mp ⟨loaded, hsame, hloaded⟩⟩

/-- The record does not depend on the expiry, so whatever the strings are, it is read as a key with
one expiry at most. -/
theorem expiry_of_roundTrips {expiry : Option String} (h : RoundTrips y key args)
    (h' : RoundTrips y key { args with expiresAt := expiry }) : expiry = args.expiresAt := by
  obtain ⟨limit, -, hload⟩ := h
  obtain ⟨limit', -, hload'⟩ := h'
  have hkeys := Option.some.inj (hload'.symm.trans hload)
  exact congrArg VirtualKey.expiresAt (List.cons.inj hkeys).1

end Loading

/-- Whole numbers of 64 bits are numbers, everything else is a string. -/
def resolveCount (text : String) : Json :=
  let n := Nat.ofDigitChars 10 text.toList 0
  if text.toList.all Char.isDigit && n < 2 ^ 64 then .number (.unsigned (UInt64.ofNat n))
  else .string text

def rateOf : Number → ℚ
  | .unsigned n => n.toNat
  | .negative i => i
  | .float _ => 0

/-- A reader that knows whole numbers only. -/
def wholeYaml : Yaml where
  load := YamlReading.readDocument resolveCount
  resolve := resolveCount
  rate := rateOf
  display := fun q => String.ofList (Nat.toDigits 10 q.floor.toNat)

/-- Digits are read as the number they denote. -/
theorem resolveCount_digits {n : ℕ} (h : n < 2 ^ 64) :
    resolveCount (String.ofList (Nat.toDigits 10 n)) = .number (.unsigned (UInt64.ofNat n)) := by
  have hall : (Nat.toDigits 10 n).all Char.isDigit = true :=
    List.all_eq_true.mpr fun c hc => isDigit_of_mem_digits hc
  rw [resolveCount, String.toList_ofList, Nat.ofDigitChars_ten_toDigits, hall, decide_eq_true h]
  rfl

theorem wholeYaml_lawful : Lawful wholeYaml where
  reads := YamlReading.readDocument_reads resolveCount
  counts := by
    intro n
    have hbound : n.toNat < 2 ^ 64 := Nat.lt_trans n.toNat_lt (by decide)
    rw [count, ← UInt64.ofNat_uInt32ToNat]
    exact resolveCount_digits hbound
  words := by
    intro p
    cases p <;> rfl
  decimals := fun q => plainText_digits q.floor.toNat

/-- A key with a limit and without an expiry. -/
def coreKey : CreateArgs :=
  ⟨"core", "web", "prod", ["gpt-4o", "claude-3"], some 10, some ⟨.finite 500, .day⟩, none⟩

/-- The same key with an expiry. -/
def expiringKey : CreateArgs := { coreKey with expiresAt := some "2026-12-31T23:59:59Z" }

theorem coreKey_expressible : Expressible wholeYaml coreKey where
  expiry := rfl
  strings := by
    have hall : coreKey.strings.all (fun s => s.toList.all ordinary) = true := by decide
    intro s hs
    exact List.all_eq_true.mp (List.all_eq_true.mp hall s hs)
  amount := by
    intro limit hlimit
    obtain rfl := Option.some.inj hlimit
    refine ⟨500, .unsigned 500, rfl, ?_, ?_⟩
    · have hbound : 500 < 2 ^ 64 := by decide
      exact resolveCount_digits hbound
    · rfl

end VaultplaneGateway.OfflineKeys
