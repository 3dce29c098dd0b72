import Mathlib.Data.Bool.AllAny
import Mathlib.Data.List.Nodup
import Enrollment.Config.Document
import Enrollment.Proofs.TomlDocument
namespace Enrollment.Config

/-!
# Configuration documents say what is loaded

A configuration that is loaded is valid, and each of its fields is what the document
says of it, or its default; what a document says as a text or a number, one of its lines
says.  Every document whose lines say a valid configuration is loaded as just that one,
and with one key more it is refused.
-/

open Toml

/-! ### What a document says -/

/-- Nothing stands in the node. -/
inductive IsEmpty : Node → Prop
  | list : IsEmpty (.leaf .emptyList)
  | inline : IsEmpty (.leaf (.inline []))
  | table (origin : Origin) : IsEmpty (.table origin [])

/-- The node is this text. -/
inductive SaysText : Node → String → Prop
  | text (s : String) : SaysText (.leaf (.text s)) s

/-- The node is a number of seconds. -/
inductive SaysSecs : Node → Duration → Prop
  | integer (n : Nat) : SaysSecs (.leaf (.integer n)) (.ofSecs n)

/-- The node names the protocol, by itself or as the only key of a table. -/
inductive SaysProtocol : Node → Protocol → Prop
  | name (p : Protocol) : SaysProtocol (.leaf (.text p.name)) p
  | inline (p : Protocol) {value : Value} (h : IsEmpty (.leaf value)) :
      SaysProtocol (.leaf (.inline [([p.name], value)])) p
  | table (p : Protocol) (origin : Origin) {node : Node} (h : IsEmpty node) :
      SaysProtocol (.table origin [(p.name, node)]) p

/-- What a key says is this, or the key is missing and this is its default. -/
def Sets {α : Type} (entries : Entries) (key : String) (Says : Node → α → Prop)
    (absent : Option α) (a : α) : Prop :=
  match entries.lookup key with
  | some node => Says node a
  | none => absent = some a

/-- Every key of the document is known, and every field is what its key says. -/
structure SaidBy (entries : Entries) (c : Config) : Prop where
  known : ∀ key ∈ entries.keys, key ∈ Settings.keys
  globalEndpoint : Sets entries "global_endpoint" SaysText (some defaultEndpoint) c.globalEndpoint
  idScope : Sets entries "id_scope" SaysText none c.idScope
  protocol : Sets entries "protocol" SaysProtocol (some .https) c.protocol
  operationTimeout : Sets entries "operation_timeout_secs" SaysSecs (some (.ofSecs 90))
    c.operationTimeout
  pollInterval : Sets entries "poll_interval_secs" SaysSecs (some (.ofSecs 5)) c.pollInterval
  attemptBudget : Sets entries "attempt_budget_secs" SaysSecs (some (.ofSecs 600)) c.attemptBudget
  tokenTtl : Sets entries "token_ttl_secs" SaysSecs (some (.ofSecs 3600)) c.tokenTtl

/-- A duration of whole seconds, at least one and at most those of a year. -/
def IsSetting (d : Duration) : Prop := ∃ n, 1 ≤ n ∧ n ≤ 31536000 ∧ d = .ofSecs n

/-! ### What a configuration is written as -/

/-- The seven keys, with the values by which they give a configuration. -/
def settings (c : Config) : List (String × Value) :=
  [("global_endpoint", .text c.globalEndpoint), ("id_scope", .text c.idScope),
    ("protocol", .text c.protocol.name),
    ("operation_timeout_secs", .integer c.operationTimeout.secs),
    ("poll_interval_secs", .integer c.pollInterval.secs),
    ("attempt_budget_secs", .integer c.attemptBudget.secs),
    ("token_ttl_secs", .integer c.tokenTtl.secs)]

/-- Some of the settings of a configuration, each once; those that are missing are
defaults, and the scope is not. -/
structure Gives (given : List (String × Value)) (c : Config) : Prop where
  once : (given.map Prod.fst).Nodup
  right : ∀ m ∈ given, m ∈ c.settings
  missing : ∀ m ∈ c.settings, m ∉ given → m ∈ (ofScope c.idScope .https).settings ∧ m.1 ≠ "id_scope"

/-! ### Reading -/

theorem saysText_of_asText? {node : Node} {s : String} (h : Settings.asText? node = some s) :
    SaysText node s := by
  unfold Settings.asText? at h
  split at h
  · obtain rfl := Option.some.inj h
    exact .text _
  · exact nomatch h

theorem saysSecs_of_asSecs? {node : Node} {n : Nat} (h : Settings.asSecs? node = some n) :
    SaysSecs node (.ofSecs n) := by
  unfold Settings.asSecs? at h
  split at h
  · rename_i m
    split at h
    · rename_i hnonneg
      obtain ⟨k, rfl⟩ := Int.eq_ofNat_of_zero_le hnonneg
      obtain rfl := Option.some.inj h
      exact .integer k
    · exact nomatch h
  · exact nomatch h

theorem eq_name_of_ofName? {name : String} {p : Protocol} (h : Protocol.ofName? name = some p) :
    name = p.name := by
  have hfound := List.find?_some h
  exact (beq_iff_eq.mp hfound).symm

theorem name_injective {p q : Protocol} (h : p.name = q.name) : p = q := by
  have hname := congrArg Protocol.ofName? h
  simpa using hname

theorem isEmpty_of_isBare {node : Node} (h : Settings.isBare node = true) : IsEmpty node := by
  unfold Settings.isBare at h
  split at h
  · exact .list
  · exact .inline
  · exact .table _
  · exact nomatch h

theorem saysProtocol_of_asProtocol? {node : Node} {p : Protocol}
    (h : Settings.asProtocol? node = some p) : SaysProtocol node p := by
  unfold Settings.asProtocol? at h
  split at h
  · obtain rfl := eq_name_of_ofName? h
    exact .name p
  · split at h
    · rename_i hbare
      obtain rfl := eq_name_of_ofName? h
      exact .inline p (isEmpty_of_isBare hbare)
    · exact nomatch h
  · split at h
    · rename_i hbare
      obtain rfl := eq_name_of_ofName? h
      exact .table p _ (isEmpty_of_isBare hbare)
    · exact nomatch h
  · exact nomatch h

theorem read?_eq_some_iff {α : Type} {as? : Node → Option α} {key : String} {entries : Entries}
    {x : Option α} :
    Settings.read? as? key entries = some x ↔
      match entries.lookup key with
      | none => x = none
      | some node => ∃ a, as? node = some a ∧ x = some a := by
  rw [Settings.read?]
  cases entries.lookup key with
  | none => simp [eq_comm]
  | some node => simp [eq_comm]

theorem ofEntries?_eq_some_iff {entries : Entries} {s : Settings} :
    Settings.ofEntries? entries = some s ↔
      (∀ key ∈ entries.keys, key ∈ Settings.keys) ∧
      Settings.read? Settings.asText? "global_endpoint" entries = some s.globalEndpoint ∧
      Settings.read? Settings.asText? "id_scope" entries = some s.idScope ∧
      Settings.read? Settings.asProtocol? "protocol" entries = some s.protocol ∧
      Settings.read? Settings.asSecs? "operation_timeout_secs" entries =
        some s.operationTimeoutSecs ∧
      Settings.read? Settings.asSecs? "poll_interval_secs" entries = some s.pollIntervalSecs ∧
      Settings.read? Settings.asSecs? "attempt_budget_secs" entries = some s.attemptBudgetSecs ∧
      Settings.read? Settings.asSecs? "token_ttl_secs" entries = some s.tokenTtlSecs := by
  have hknown : (entries.all fun e ↦ Settings.keys.contains e.1) = true ↔
      ∀ key ∈ entries.keys, key ∈ Settings.keys := by
    simp [Entries.keys]
  rw [Settings.ofEntries?]
  split
  · rename_i hall
    simp only [Option.bind_eq_bind, Option.bind_eq_some_iff, Option.pure_def, Option.some.injEq]
    constructor
    · rintro ⟨endpoint, h₁, scope, h₂, protocol, h₃, timeout, h₄, interval, h₅, budget, h₆, ttl, h₇,
        rfl⟩
      exact ⟨hknown.mp hall, h₁, h₂, h₃, h₄, h₅, h₆, h₇⟩
    · rintro ⟨-, h₁, h₂, h₃, h₄, h₅, h₆, h₇⟩
      exact ⟨_, h₁, _, h₂, _, h₃, _, h₄, _, h₅, _, h₆, _, h₇, rfl⟩
  · rename_i hall
    simp only [reduceCtorEq, false_iff, not_and]
    exact fun hkeys ↦ absurd (hknown.mpr hkeys) hall

/-- What it takes for a document to be loaded. -/
theorem ofDocument_eq_ok_iff {text : String} {c : Config} :
    ofDocument text = .ok c ↔
      ∃ entries settings scope, document? text = some entries ∧
        Settings.ofEntries? entries = some settings ∧ settings.idScope = some scope ∧
        settings.withScope scope = c ∧ c.validate = .ok () := by
  have hread (settings : Settings) : Settings.ofText? text = some settings ↔
      ∃ entries, document? text = some entries ∧ Settings.ofEntries? entries = some settings :=
    Option.bind_eq_some_iff
  constructor
  · intro h
    unfold ofDocument at h
    split at h
    · exact nomatch h
    · rename_i settings hsettings
      obtain ⟨entries, hentries, hof⟩ := (hread settings).mp hsettings
      split at h
      · exact nomatch h
      · rename_i scope hscope
        cases hvalid : (settings.withScope scope).validate with
        | error error => simp [hvalid, bind, Except.bind] at h
        | ok u =>
          obtain rfl : settings.withScope scope = c := by
            simpa [hvalid, bind, Except.bind, pure, Except.pure] using h
          exact ⟨entries, settings, scope, hentries, hof, hscope, rfl, hvalid⟩
  · rintro ⟨entries, settings, scope, hentries, hof, hscope, rfl, hvalid⟩
    have hsettings := (hread settings).mpr ⟨entries, hentries, hof⟩
    simp [ofDocument, hsettings, hscope, hvalid]

/-! ### What is loaded was said -/

theorem sets_of_read? {α β : Type} {as? : Node → Option α} {Said : Node → β → Prop} {f : α → β}
    {entries : Entries} {key : String} {x : Option α} {default : β}
    (hsaid : ∀ node a, as? node = some a → Said node (f a))
    (h : Settings.read? as? key entries = some x) :
    Sets entries key Said (some default) ((x.map f).getD default) := by
  rw [read?_eq_some_iff] at h
  unfold Sets
  split at h
  · rename_i hlookup
    obtain rfl := h
    simp [hlookup]
  · rename_i node hlookup
    obtain ⟨a, ha, rfl⟩ := h
    simpa [hlookup] using hsaid node a ha

theorem sets_of_read?_some {α : Type} {as? : Node → Option α} {Said : Node → α → Prop}
    {entries : Entries} {key : String} {a : α} (hsaid : ∀ node a, as? node = some a → Said node a)
    (h : Settings.read? as? key entries = some (some a)) : Sets entries key Said none a := by
  rw [read?_eq_some_iff] at h
  unfold Sets
  split at h
  · exact nomatch h
  · rename_i node hlookup
    obtain ⟨a', ha, heq⟩ := h
    obtain rfl := Option.some.inj heq
    simpa [hlookup] using hsaid node a ha

theorem saidBy_of_ofEntries? {entries : Entries} {s : Settings} {scope : String}
    (h : Settings.ofEntries? entries = some s) (hscope : s.idScope = some scope) :
    SaidBy entries (s.withScope scope) := by
  obtain ⟨hknown, hendpoint, hid, hprotocol, htimeout, hinterval, hbudget, httl⟩ :=
    ofEntries?_eq_some_iff.mp h
  have htext (node : Node) (a : String) : Settings.asText? node = some a → SaysText node a :=
    saysText_of_asText?
  have hsecs (node : Node) (n : Nat) :
      Settings.asSecs? node = some n → SaysSecs node (.ofSecs n) := saysSecs_of_asSecs?
  rw [hscope] at hid
  refine ⟨hknown, ?_, sets_of_read?_some htext hid, ?_, sets_of_read? hsecs htimeout,
    sets_of_read? hsecs hinterval, sets_of_read? hsecs hbudget, sets_of_read? hsecs httl⟩
  · simpa [Settings.withScope] using sets_of_read? (f := id) htext hendpoint
  · have hname (node : Node) (p : Protocol) :
        Settings.asProtocol? node = some p → SaysProtocol node p := saysProtocol_of_asProtocol?
    simpa [Settings.withScope] using sets_of_read? (f := id) hname hprotocol

/-- A duration that is said is a whole number of seconds. -/
theorem Sets.whole {entries : Entries} {key : String} {n : Nat} {d : Duration}
    (h : Sets entries key SaysSecs (some (.ofSecs n)) d) : ∃ n, d = .ofSecs n := by
  unfold Sets at h
  split at h
  · obtain ⟨n⟩ := h
    exact ⟨n, rfl⟩
  · exact ⟨n, (Option.some.inj h).symm⟩

theorem SaidBy.whole {entries : Entries} {c : Config} (h : SaidBy entries c)
    (setting : TimeSetting) : ∃ n, c.duration setting = .ofSecs n := by
  cases setting with
  | operationTimeout => exact h.operationTimeout.whole
  | pollInterval => exact h.pollInterval.whole
  | attemptBudget => exact h.attemptBudget.whole
  | tokenTtl => exact h.tokenTtl.whole

/-- A valid configuration of whole seconds has between one of them and those of a year. -/
theorem Valid.isSetting {c : Config} (h : c.Valid) {setting : TimeSetting} {n : Nat}
    (hn : c.duration setting = .ofSecs n) : IsSetting (c.duration setting) := by
  have hlow := h.positive setting
  have hhigh := h.bounded setting
  rw [hn] at hlow hhigh
  simp only [Duration.lt_def, Duration.le_def, Duration.zero, Duration.ofSecs, TimeSetting.limit,
    Duration.second] at hlow hhigh
  exact ⟨n, by omega, by omega, hn⟩

/-! ### What is said is loaded -/

theorem keys_settings (c : Config) : c.settings.map Prod.fst = Settings.keys := rfl

/-- A key has one value in a configuration. -/
theorem settings_unique {c : Config} {key : String} {v v' : Value} (h : (key, v) ∈ c.settings)
    (h' : (key, v') ∈ c.settings) : v = v' := by
  have hkeys : (c.settings.map Prod.fst).Nodup := by
    rw [keys_settings]
    decide
  exact congrArg Prod.snd (List.inj_on_of_nodup_map hkeys h h' rfl)

/-- A setting stands in the document, or it is missing and a default. -/
theorem Gives.lookup {given : List (String × Value)} {c : Config} (h : Gives given c)
    {key : String} {v : Value} (hm : (key, v) ∈ c.settings) :
    (given.map leaf).lookup key = some (.leaf v) ∨
      (given.map leaf).lookup key = none ∧ (key, v) ∈ (ofScope c.idScope .https).settings ∧
        key ≠ "id_scope" := by
  by_cases hkey : key ∈ given.map Prod.fst
  · obtain ⟨v', hgiven, hlookup⟩ := lookup_leaves_of_mem hkey
    obtain rfl := settings_unique (h.right _ hgiven) hm
    exact .inl hlookup
  · have hmissing : (key, v) ∉ given := fun hgiven ↦
      hkey (List.mem_map.mpr ⟨(key, v), hgiven, rfl⟩)
    exact .inr ⟨lookup_leaves_of_not_mem hkey, h.missing _ hm hmissing⟩

section Read

variable {given : List (String × Value)} {c : Config} {key : String}

/-- A key that is given is read as its value; one that is missing has its default. -/
theorem Gives.read? (h : Gives given c) (v v' : Value) (hm : (key, v) ∈ c.settings)
    (hm' : (key, v') ∈ (ofScope c.idScope .https).settings) {α β : Type} {as? : Node → Option α}
    {a : α} (has : as? (.leaf v) = some a) {f : α → β} {default : β}
    (hdefault : v = v' → default = f a) :
    ∃ x, Settings.read? as? key (given.map leaf) = some x ∧ (x.map f).getD default = f a := by
  rcases h.lookup hm with hlookup | ⟨hlookup, hmem, -⟩
  · exact ⟨some a, read?_eq_some_iff.mpr (by simp [hlookup, has]), rfl⟩
  · exact ⟨none, read?_eq_some_iff.mpr (by simp [hlookup]), hdefault (settings_unique hmem hm')⟩

theorem secs_ofSecs (n : Nat) : (Duration.ofSecs n).secs = n := by
  simp [Duration.secs, Duration.ofSecs, Duration.second]

theorem Gives.readSecs? (h : Gives given c) (n n' : Nat)
    (hm : (key, .integer (Duration.ofSecs n).secs) ∈ c.settings)
    (hm' : (key, .integer (Duration.ofSecs n').secs) ∈ (ofScope c.idScope .https).settings) :
    ∃ x, Settings.read? Settings.asSecs? key (given.map leaf) = some x ∧
      (x.map Duration.ofSecs).getD (.ofSecs n') = .ofSecs n := by
  have has : Settings.asSecs? (.leaf (.integer (Duration.ofSecs n).secs)) = some n := by
    rw [secs_ofSecs]
    simp [Settings.asSecs?]
  refine h.read? _ _ hm hm' has fun heq ↦ ?_
  simp only [Value.integer.injEq, secs_ofSecs, Int.natCast_inj] at heq
  rw [heq]

/-- The scope has no default. -/
theorem Gives.readScope? (h : Gives given c) :
    Settings.read? Settings.asText? "id_scope" (given.map leaf) = some (some c.idScope) := by
  have hm : ("id_scope", .text c.idScope) ∈ c.settings := by simp [settings]
  rcases h.lookup hm with hlookup | ⟨-, -, hne⟩
  · exact read?_eq_some_iff.mpr (by simp [hlookup, Settings.asText?])
  · exact absurd rfl hne

/-- Lines that give a configuration are read as settings that make it. -/
theorem Gives.ofEntries? (h : Gives given c)
    (hwhole : ∀ setting, ∃ n, c.duration setting = .ofSecs n) :
    ∃ s, Settings.ofEntries? (given.map leaf) = some s ∧ s.idScope = some c.idScope ∧
      s.withScope c.idScope = c := by
  have hknown : ∀ key ∈ Entries.keys (given.map leaf), key ∈ Settings.keys := by
    intro key hkey
    rw [keys_leaves] at hkey
    obtain ⟨m, hm, rfl⟩ := List.mem_map.mp hkey
    rw [← keys_settings c]
    exact List.mem_map_of_mem (h.right m hm)
  have hscope := h.readScope?
  have hendpoint : Settings.asText? (.leaf (.text c.globalEndpoint)) = some c.globalEndpoint := rfl
  have hprotocol : Settings.asProtocol? (.leaf (.text c.protocol.name)) = some c.protocol :=
    Protocol.ofName?_name c.protocol
  obtain ⟨endpoint, scope, protocol, timeout, interval, budget, ttl⟩ := c
  obtain ⟨t, rfl : timeout = .ofSecs t⟩ := hwhole .operationTimeout
  obtain ⟨i, rfl : interval = .ofSecs i⟩ := hwhole .pollInterval
  obtain ⟨b, rfl : budget = .ofSecs b⟩ := hwhole .attemptBudget
  obtain ⟨l, rfl : ttl = .ofSecs l⟩ := hwhole .tokenTtl
  obtain ⟨x₁, hread₁, heq₁⟩ : ∃ x,
      Settings.read? Settings.asText? "global_endpoint" (given.map leaf) = some x ∧
        (x.map id).getD defaultEndpoint = id endpoint :=
    h.read? (.text endpoint) (.text defaultEndpoint) (by simp [settings])
      (by simp [settings, ofScope]) hendpoint (by simp [eq_comm])
  obtain ⟨x₂, hread₂, heq₂⟩ : ∃ x,
      Settings.read? Settings.asProtocol? "protocol" (given.map leaf) = some x ∧
        (x.map id).getD .https = id protocol :=
    h.read? (.text protocol.name) (.text Protocol.https.name) (by simp [settings])
      (by simp [settings, ofScope]) hprotocol fun heq ↦ name_injective (Value.text.inj heq).symm
  obtain ⟨x₃, hread₃, heq₃⟩ : ∃ x,
      Settings.read? Settings.asSecs? "operation_timeout_secs" (given.map leaf) = some x ∧ _ :=
    h.readSecs? t 90 (by simp [settings]) (by simp [settings, ofScope, defaultDuration])
  obtain ⟨x₄, hread₄, heq₄⟩ : ∃ x,
      Settings.read? Settings.asSecs? "poll_interval_secs" (given.map leaf) = some x ∧ _ :=
    h.readSecs? i 5 (by simp [settings]) (by simp [settings, ofScope, defaultDuration])
  obtain ⟨x₅, hread₅, heq₅⟩ : ∃ x,
      Settings.read? Settings.asSecs? "attempt_budget_secs" (given.map leaf) = some x ∧ _ :=
    h.readSecs? b 600 (by simp [settings]) (by simp [settings, ofScope, defaultDuration])
  obtain ⟨x₆, hread₆, heq₆⟩ : ∃ x,
      Settings.read? Settings.asSecs? "token_ttl_secs" (given.map leaf) = some x ∧ _ :=
    h.readSecs? l 3600 (by simp [settings]) (by simp [settings, ofScope, defaultDuration])
  refine ⟨⟨x₁, some scope, x₂, x₃, x₄, x₅, x₆⟩, ?_, rfl, ?_⟩
  · exact ofEntries?_eq_some_iff.mpr
      ⟨hknown, hread₁, hscope, hread₂, hread₃, hread₄, hread₅, hread₆⟩
  · rw [Option.map_id, id_eq, id_eq] at heq₁ heq₂
    simp only [Settings.withScope, defaultDuration, heq₁, heq₂, heq₃, heq₄, heq₅, heq₆]

end Read

/-- A document of lines that give a valid configuration is loaded as that one. -/
theorem Gives.ofDocument {given : List (String × Value)} {c : Config} (h : Gives given c)
    (hvalid : c.validate = .ok ()) (hwhole : ∀ setting, ∃ n, c.duration setting = .ofSecs n)
    {text : String} (htext : DocumentText (given.map setting) text) : ofDocument text = .ok c := by
  obtain ⟨s, hs, hscope, hc⟩ := h.ofEntries? hwhole
  have hdocument : document? text = some (given.map leaf) := by
    rw [document?_eq htext, if_pos h.once]
  exact ofDocument_eq_ok_iff.mpr ⟨_, s, c.idScope, hdocument, hs, hscope, hc, hvalid⟩

/-- A document with a key that is unknown or was given before is malformed. -/
theorem ofDocument_extended {given : List (String × Value)} {key text : String}
    (hkey : key ∉ Settings.keys ∨ key ∈ given.map Prod.fst)
    (htext : ExtendedText given key text) :
    ofDocument text = .error (.client .malformedConfig) := by
  have hnone : Settings.ofText? text = none := by
    by_contra hsome
    obtain ⟨s, hs⟩ := Option.ne_none_iff_exists'.mp hsome
    obtain ⟨entries, hentries, hread⟩ := Option.bind_eq_some_iff.mp hs
    obtain ⟨hnew, hmem⟩ := document?_extended htext hentries
    have hknown := (ofEntries?_eq_some_iff.mp hread).1 key hmem
    rcases hkey with hkey | hkey
    · exact hkey hknown
    · exact hnew hkey
  rw [ofDocument, hnone]
  rfl

/-- Whatever is loaded is valid and was said, on the lines of its document; whatever is said
is loaded; and nothing is loaded from a document with one key more. -/
theorem documents_loaded_as_said :
    (∀ (text : String) (c : Config), ofDocument text = .ok c →
      c.validate = .ok () ∧ (∀ setting, IsSetting (c.duration setting)) ∧
        ∃ entries, document? text = some entries ∧ SaidBy entries c ∧
          ∃ ss, DocumentText ss text ∧ build [] [] ss = some entries ∧
            ∀ key v, entries.lookup key = some (.leaf v) → setting (key, v) ∈ ss) ∧
    (∀ (c : Config) (given : List (String × Value)) (text : String), c.validate = .ok () →
      (∀ setting, ∃ n, c.duration setting = .ofSecs n) → Gives given c →
      DocumentText (given.map setting) text → ofDocument text = .ok c) ∧
    (∀ (given : List (String × Value)) (key text : String),
      key ∉ Settings.keys ∨ key ∈ given.map Prod.fst → ExtendedText given key text →
      ofDocument text = .error (.client .malformedConfig)) := by
  refine ⟨fun text c h ↦ ?_, fun c given text hvalid hwhole hgives htext ↦ ?_,
    fun given key text hkey htext ↦ ofDocument_extended hkey htext⟩
  · obtain ⟨entries, s, scope, hentries, hs, hscope, rfl, hvalid⟩ := ofDocument_eq_ok_iff.mp h
    have hsaid := saidBy_of_ofEntries? hs hscope
    refine ⟨hvalid, fun setting ↦ ?_, entries, hentries, hsaid, exists_documentText hentries⟩
    obtain ⟨n, hn⟩ := hsaid.whole setting
    exact (validate_eq_ok_iff.mp hvalid).isSetting hn
  · exact hgives.ofDocument hvalid hwhole htext

/-! ### A document that leaves out three keys -/

def plantConfig : Config :=
  { ofScope "0neé" .mqttWs with
    globalEndpoint := "dps.plant.test"
    pollInterval := .ofSecs 20 }

def plantSettings : List (String × Value) :=
  [("protocol", .text "mqtt-ws"), ("id_scope", .text "0neé"),
    ("global_endpoint", .text "dps.plant.test"), ("poll_interval_secs", .integer 20)]

def plantText : String :=
  "protocol = 'mqtt-ws'\r\n'id_scope'=\"0ne\\u00E9\" # plant\n\n" ++
    "global_endpoint = \"\"\"\ndps.\\\n  plant.test\"\"\"\npoll_interval_secs = 0x1_4"

def strayText : String :=
  "protocol = 'mqtt-ws'\r\nregion.name = 1e3\n'id_scope'=\"0ne\\u00E9\""

theorem gives_plantSettings : Gives plantSettings plantConfig where
  once := by decide
  right := by simp [plantSettings, plantConfig, settings, ofScope, Protocol.name, secs_ofSecs]
  missing := by
    simp [plantSettings, plantConfig, settings, ofScope, Protocol.name, secs_ofSecs]

/-- Plain characters stand for themselves, in strings of one line and of several. -/
theorem plain_append {Body : List Char → List Char → Prop} {plain s cs : List Char}
    (hcons : ∀ {c : Char} {s cs : List Char}, Reader.isPlain c → c ≠ '"' → c ≠ '\\' →
      Body s cs → Body (c :: s) (c :: cs))
    (hplain : ∀ c ∈ plain, Reader.isPlain c ∧ c ≠ '"' ∧ c ≠ '\\') (h : Body s cs) :
    Body (plain ++ s) (plain ++ cs) := by
  induction plain with
  | nil => exact h
  | cons c plain ih =>
    obtain ⟨⟨hc, hquote, hslash⟩, hplain⟩ := List.forall_mem_cons.mp hplain
    exact hcons hc hquote hslash (ih hplain)

theorem blanks_space : Blanks [' '] := by simp [Blanks, Reader.isBlank]

theorem lineText_protocol :
    LineText (some (setting ("protocol", .text "mqtt-ws"))) "protocol = 'mqtt-ws'".toList := by
  have hkey : KeyText "protocol" "protocol".toList :=
    .bare (by decide) (List.all_iff_forall_prop.mp (by decide))
  have hvalue : ValueText (.text "mqtt-ws") "'mqtt-ws'".toList :=
    .literal (s := "mqtt-ws".toList) (List.all_iff_forall_prop.mp (by decide))
  exact lineText_setting hkey hvalue blanks_nil blanks_space blanks_space blanks_nil .none

theorem lineText_scope :
    LineText (some (setting ("id_scope", .text "0neé")))
      "'id_scope'=\"0ne\\u00E9\" # plant".toList := by
  have hkey : KeyText "id_scope" "'id_scope'".toList :=
    .literal (s := "id_scope".toList) (List.all_iff_forall_prop.mp (by decide))
  have haccent : List.Forall₂ (IsDigit 16) [0, 0, 14, 9] ['0', '0', 'E', '9'] :=
    .cons (by decide) (.cons (by decide) (.cons (by decide) (.cons (by decide) .nil)))
  have hname : BasicText ("0ne".toList ++ ['é']) ("0ne".toList ++ "\\u00E9".toList) :=
    plain_append .plain (List.all_iff_forall_prop.mp (by decide))
      (.wide (.head _) haccent (by decide) .nil)
  have hvalue : ValueText (.text "0neé") "\"0ne\\u00E9\"".toList := .basic hname
  have hcomment : CommentText ('#' :: " plant".toList) :=
    .comment (List.all_iff_forall_prop.mp (by decide))
  exact lineText_setting hkey hvalue blanks_nil blanks_nil blanks_nil blanks_space hcomment

/-- The value starts on the next line, and a backslash joins that line to the one after. -/
theorem lineText_endpoint :
    LineText (some (setting ("global_endpoint", .text "dps.plant.test")))
      "global_endpoint = \"\"\"\ndps.\\\n  plant.test\"\"\"".toList := by
  have hkey : KeyText "global_endpoint" "global_endpoint".toList :=
    .bare (by decide) (List.all_iff_forall_prop.mp (by decide))
  have hlast : BasicLines ("plant.test".toList ++ []) ("plant.test".toList ++ []) :=
    plain_append .plain (List.all_iff_forall_prop.mp (by decide)) .nil
  have hgap : Gap [' ', ' '] := .blank (by decide) (.blank (by decide) .nil)
  have hjoined := BasicLines.joined blanks_nil lf_mem hgap (by simp [Shown]) hlast
  have hname : BasicLines ("dps.".toList ++ _) ("dps.".toList ++ _) :=
    plain_append .plain (List.all_iff_forall_prop.mp (by decide)) hjoined
  have hvalue : ValueText (.text "dps.plant.test")
      "\"\"\"\ndps.\\\n  plant.test\"\"\"".toList :=
    .basicLines hname (.lineEnd lf_mem)
  exact lineText_setting hkey hvalue blanks_nil blanks_space blanks_space blanks_nil .none

theorem lineText_interval :
    LineText (some (setting ("poll_interval_secs", .integer 20)))
      "poll_interval_secs = 0x1_4".toList := by
  have hkey : KeyText "poll_interval_secs" "poll_interval_secs".toList :=
    .bare (by decide) (List.all_iff_forall_prop.mp (by decide))
  have hdigits : DigitsText 16 [1, 4] ['1', '_', '4'] := .apart (by decide) (.last (by decide))
  have hnumber : NumberText 20 "0x1_4".toList := .marked (.head _) hdigits
  have hvalue : ValueText (.integer 20) "0x1_4".toList := .number hnumber (by decide)
  exact lineText_setting hkey hvalue blanks_nil blanks_space blanks_space blanks_nil .none

theorem documentText_plantText : DocumentText (plantSettings.map setting) plantText :=
  .mk (.head _)
    (.cons lineText_protocol crlf_mem
      (.cons lineText_scope lf_mem
        (.cons (.empty blanks_nil .none) lf_mem (.cons lineText_endpoint lf_mem .nil))))
    lineText_interval (by decide +kernel)

theorem extendedText_strayText :
    ExtendedText [("protocol", .text "mqtt-ws")] "region" strayText := by
  have hkey : KeyText "region" "region".toList :=
    .bare (by decide) (List.all_iff_forall_prop.mp (by decide))
  have hopens : OpensKey "region" "region.name = 1e3\n'id_scope'=\"0ne\\u00E9\"".toList :=
    .setting hkey blanks_nil blanks_nil (.tail _ (.head _)) _
  exact .mk (.head _) (.cons lineText_protocol crlf_mem .nil) hopens (by decide +kernel)

theorem documents_loaded_as_said_plant :
    plantConfig.validate = .ok () ∧ (∀ setting, ∃ n, plantConfig.duration setting = .ofSecs n) ∧
      Gives plantSettings plantConfig ∧ DocumentText (plantSettings.map setting) plantText ∧
      ofDocument plantText = .ok plantConfig ∧
      (∃ entries, document? plantText = some entries ∧ SaidBy entries plantConfig ∧
        ∃ ss, DocumentText ss plantText ∧ build [] [] ss = some entries ∧
          ∀ key v, entries.lookup key = some (.leaf v) → setting (key, v) ∈ ss) ∧
      "region" ∉ Settings.keys ∧
      ExtendedText [("protocol", .text "mqtt-ws")] "region" strayText ∧
      ofDocument strayText = .error (.client .malformedConfig) := by
  have hvalid : plantConfig.validate = .ok () := by decide +kernel
  have hwhole : ∀ setting, ∃ n, plantConfig.duration setting = .ofSecs n := by
    intro setting
    cases setting
    · exact ⟨90, rfl⟩
    · exact ⟨20, rfl⟩
    · exact ⟨600, rfl⟩
    · exact ⟨3600, rfl⟩
  have hunknown : "region" ∉ Settings.keys := by decide
  obtain ⟨hsound, hcomplete, hstray⟩ := documents_loaded_as_said
  have hloaded := hcomplete plantConfig plantSettings plantText hvalid hwhole gives_plantSettings
    documentText_plantText
  exact ⟨hvalid, hwhole, gives_plantSettings, documentText_plantText, hloaded,
    (hsound plantText plantConfig hloaded).2.2, hunknown, extendedText_strayText,
    hstray _ "region" strayText (.inl hunknown) extendedText_strayText⟩

end Enrollment.Config
