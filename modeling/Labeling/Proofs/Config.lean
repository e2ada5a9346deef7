import Labeling.Config
import Labeling.Proofs.Json.Printed
import Labeling.Proofs.Keyboard.Key

/-!
# Saved settings come back

Whatever a configuration file gives, leaves out or has besides, the settings that are read from it can
be stored (`Config.storable_of_read?`): their numbers fit, and no action has the key of the space
character, whose name is that of another key. Such settings are the same once they are saved and read
again (`Config.read?_document`).

* `Record.of_given` says what is known of a field from what is known of its default and of what can be
  read;
* `Source.recordOf_document` finds the fields of a record in the document of its text.
-/

namespace Labeling

/-! ## Records in a document -/

theorem Document.named?_namedDocuments (fields : List (String × Json)) :
    named? (Json.namedDocuments fields) = some (fields.map fun f => (f.1, f.2.document)) := by
  induction fields with
  | nil => rfl
  | cons f rest ih =>
    rw [Json.namedDocuments, named?, ih]
    rfl

/-- The document of a record's text gives the record by the names of its fields. -/
theorem Source.recordOf_document (fields : List (String × Json)) (size : Nat) :
    recordOf (Json.obj fields).document size =
      some (.named (fields.map fun f => (f.1, f.2.document))) := by
  have hrecord : record? (Json.obj fields).document =
      some (.named (fields.map fun f => (f.1, f.2.document))) := by
    rw [Json.document]
    exact congrArg (Option.map Record.named) (Document.named?_namedDocuments fields)
  rw [recordOf, hrecord]
  rfl

namespace Record

variable {ν α : Type} {r : Record ν} {position : Nat} {names : List String} {default a : α}

/-- What is known of the default and of everything that can be read is known of the field. -/
theorem of_given {P : α → Prop} {read : ν → Option α} (hread : ∀ v a, read v = some a → P a)
    (hdefault : P default) (h : r.given position names read default = some a) : P a := by
  obtain ⟨found, -, h⟩ := Option.bind_eq_some_iff.mp h
  cases found with
  | none =>
    cases h
    exact hdefault
  | some v => exact hread v a h

end Record

/-! ## Parts of a record -/

section Parts

variable {ν α : Type} [Source ν]

/-- What is known of everything that a reader of values reads is known of what it reads from a part. -/
theorem Source.of_leaf {P : α → Prop} {read : Json → Option α}
    (hread : ∀ w a, read w = some a → P a) (v : ν) (a : α) (h : leaf read v = some a) : P a := by
  obtain ⟨w, -, h⟩ := Option.bind_eq_some_iff.mp h
  exact hread w a h

theorem Source.leaf_str (read : Json → Option α) (text : String) :
    leaf read (Json.str text).document = read (.str text) := rfl

theorem Source.choice?_str (text : String) : choice? (Json.str text).document = some text := rfl

end Parts

/-- Fits an unsigned 32-bit integer, as a natural number. -/
theorem isUInt32_iff {n : Nat} : isUInt32 n = true ↔ n ≤ 4294967295 := by
  simp only [isUInt32, Bool.and_eq_true, decide_eq_true_eq]
  omega

theorem Json.le_of_uint64? (v : Json) (n : Nat) (h : v.uint64? = some n) :
    n ≤ 18446744073709551615 := by
  cases v with
  | int m =>
    obtain ⟨hm, rfl⟩ : isUInt64 m = true ∧ m.toNat = n := by simpa [uint64?] using h
    simp [isUInt64] at hm
    omega
  | _ => cases h

theorem Source.leaf_uint64 {n : Nat} (h : n ≤ 18446744073709551615) :
    leaf Json.uint64? (Json.nat n).document = some n := by
  have hfits := isUInt64_iff.mpr h
  have hvalue : value? (Json.nat n).document = some (.int n) := Spelling.value?_ofInt (.inr hfits)
  simp [leaf, hvalue, Json.uint64?, hfits]

theorem Source.leaf_uint32 {n : Nat} (h : n ≤ 4294967295) :
    leaf Json.uint32? (Json.nat n).document = some n := by
  have hfits := isUInt32_iff.mpr h
  have hvalue : value? (Json.nat n).document = some (.int n) :=
    Spelling.value?_ofInt (.inr (isUInt64_iff.mpr (by omega)))
  simp [leaf, hvalue, Json.uint32?, hfits]

/-! ## Preferences -/

theorem LogLevel.ofName?_name (level : LogLevel) : ofName? level.name = some level := by
  cases level <;> rfl

theorem StalePolicy.ofName?_name (policy : StalePolicy) : ofName? policy.name = some policy := by
  cases policy <;> rfl

namespace Preferences

/-- The timeout can be stored. -/
def Storable (p : Preferences) : Prop := p.timeout ≤ 18446744073709551615

theorem storable_default : default.Storable := by
  rw [Storable]
  decide

theorem storable_of_read? {ν : Type} [Source ν] (v : ν) (p : Preferences) (h : read? v = some p) :
    p.Storable := by
  simp only [read?, Option.pure_def, Option.bind_eq_bind, Option.bind_eq_some_iff,
    Option.some.injEq] at h
  obtain ⟨r, -, level, -, timeout, htimeout, stale, -, rfl⟩ := h
  have hfits : timeout ≤ 18446744073709551615 :=
    Record.of_given (P := fun n => n ≤ 18446744073709551615) (Source.of_leaf Json.le_of_uint64?)
      storable_default htimeout
  exact hfits

/-- Preferences that can be stored come back from their text. -/
theorem read?_document {p : Preferences} (h : p.Storable) : read? p.toJson.document = some p := by
  unfold read? toJson
  rw [Source.recordOf_document]
  simp [Record.given, Record.field?, Source.choice?_str, Source.leaf_uint64 h,
    LogLevel.ofName?_name, StalePolicy.ofName?_name]

end Preferences

/-! ## Key bindings -/

namespace KeyBindings

/-- No action has the key of the space character. -/
structure Storable (b : KeyBindings) : Prop where
  cancelDraw : b.cancelDraw ≠ .char ' '
  deleteSelection : b.deleteSelection ≠ .char ' '
  endTrack : b.endTrack ≠ .char ' '

theorem storable_default : default.Storable := ⟨by decide, by decide, by decide⟩

theorem ne_char_space_of_read? (v : Json) (key : Key) (h : Key.read? v = some key) :
    key ≠ .char ' ' := by
  obtain ⟨text, -, hkey⟩ := Option.bind_eq_some_iff.mp h
  exact Key.ne_char_space hkey

theorem storable_of_read? {ν : Type} [Source ν] (v : ν) (b : KeyBindings) (h : read? v = some b) :
    b.Storable := by
  simp only [read?, Option.pure_def, Option.bind_eq_bind, Option.bind_eq_some_iff,
    Option.some.injEq] at h
  obtain ⟨r, -, cancelDraw, hcancel, deleteSelection, hdelete, endTrack, hend, rfl⟩ := h
  have hkey {position : Nat} {names : List String} {unset key : Key} (hunset : unset ≠ .char ' ')
      (hgiven : r.given position names (Source.leaf Key.read?) unset = some key) : key ≠ .char ' ' :=
    Record.of_given (P := fun key => key ≠ .char ' ') (Source.of_leaf ne_char_space_of_read?) hunset
      hgiven
  exact ⟨hkey storable_default.cancelDraw hcancel, hkey storable_default.deleteSelection hdelete,
    hkey storable_default.endTrack hend⟩

theorem read?_name {key : Key} (h : key ≠ .char ' ') : Key.read? (.str key.name) = some key :=
  Key.ofName?_name h

/-- Bindings that can be stored come back from their text. -/
theorem read?_document {b : KeyBindings} (h : b.Storable) : read? b.toJson.document = some b := by
  unfold read? toJson
  rw [Source.recordOf_document]
  simp [Record.given, Record.field?, Source.leaf_str, read?_name h.cancelDraw,
    read?_name h.deleteSelection, read?_name h.endTrack]

end KeyBindings

/-! ## Settings -/

namespace Config

/-- The parts of the settings can be stored. -/
structure Storable (c : Config) : Prop where
  version : c.version ≤ 4294967295
  preferences : c.preferences.Storable
  bindings : c.bindings.Storable

/-- Settings that can be stored come back from their text. -/
theorem read?_document {c : Config} (h : c.Storable) : read? c.toJson.document = some c := by
  unfold read? toJson
  rw [Source.recordOf_document]
  simp [Record.given, Record.required, Record.field?, Source.leaf_str, Json.str?,
    Source.leaf_uint32 h.version, Preferences.read?_document h.preferences,
    KeyBindings.read?_document h.bindings]

/-- The preferences and the bindings that are read can be stored, whether they were given or not. -/
theorem storable_of_read? {ν : Type} [Source ν] {v : ν} {c : Config} (h : read? v = some c)
    (hversion : c.version ≤ currentVersion) : c.Storable := by
  simp only [read?, Option.pure_def, Option.bind_eq_bind, Option.bind_eq_some_iff,
    Option.some.injEq] at h
  obtain ⟨r, -, version, -, serverUrl, -, preferences, hpreferences, bindings, hbindings, rfl⟩ := h
  exact ⟨Nat.le_trans hversion (by decide),
    Record.of_given Preferences.storable_of_read? Preferences.storable_default hpreferences,
    Record.of_given KeyBindings.storable_of_read? KeyBindings.storable_default hbindings⟩

theorem exists_read?_of_ofText {text : String} {c : Config} (h : ofText text = .ok c) :
    c.version ≤ currentVersion ∧ ∃ d : Document, read? d = some c := by
  unfold ofText at h
  split at h
  · cases h
  · rename_i found hfound
    split at h
    · cases h
    · rename_i hversion
      cases h
      obtain ⟨d, -, hread⟩ := Option.bind_eq_some_iff.mp hfound
      exact ⟨Nat.le_of_not_lt hversion, d, hread⟩

/-- Settings that can be stored and are not newer than supported are loaded as they were saved. -/
theorem ofText_toText {c : Config} (h : c.Storable) (hversion : c.version ≤ currentVersion) :
    ofText c.toText = .ok c := by
  have hread : (Document.ofText? c.toText).bind read? = some c := by
    rw [toText, Document.ofText?_pretty]
    exact read?_document h
  rw [ofText, hread]
  exact if_neg (Nat.not_lt.mpr hversion)

/-- Every key that is read is read again from the name it is written with, and is not that of the space
character; a text of more than one character that is not in the table of names is refused. Settings
that were loaded from any text are of a supported version, and are loaded again as they are once they
are saved. -/
theorem reload_stable :
    (∀ text key, Key.ofName text = .ok key → Key.ofName key.name = .ok key ∧ key ≠ .char ' ') ∧
    (∀ text : String, 2 ≤ text.length → text ∉ Key.table.map Prod.fst →
      Key.ofName text = .error (Key.unknownMessage text)) ∧
    (∀ text c, ofText text = .ok c → c.version ≤ currentVersion ∧ ofText c.toText = .ok c) := by
  refine ⟨?_, ?_, ?_⟩
  · intro text key hkey
    exact ⟨Key.ofName_name hkey, Key.ne_char_space (Key.ofName_eq_ok.mp hkey)⟩
  · intro text hlong hmem
    exact Key.ofName_of_long hlong hmem
  · intro text c hc
    obtain ⟨hversion, d, hread⟩ := exists_read?_of_ofText hc
    exact ⟨hversion, ofText_toText (storable_of_read? hread hversion) hversion⟩

/-- A file with an unknown field, a log level, and the cancel key under its second name. -/
def sparseFile : String :=
  "\x7b\"version\": 1, \"theme\": [3], \"preferences\": \x7b\"log_level\": \"warn\"\x7d, " ++
    "\"keybindings\": \x7b\"cancel_draw\": \"Esc\"\x7d\x7d"

/-- What `sparseFile` holds: all else is as without a file. -/
def sparse : Config :=
  { default with preferences := { Preferences.default with logLevel := .warn } }

/-- A second name of a key, a name outside the table, and a file with fields that are given, left out
and unknown. -/
theorem reload_stable_sparse :
    (Key.ofName "Up" = .ok .up ∧ Key.ofName Key.up.name = .ok .up) ∧
    Key.ofName "PageUp" = .error (Key.unknownMessage "PageUp") ∧
    ofText sparseFile = .ok sparse ∧ ofText sparse.toText = .ok sparse := by
  have hup : Key.ofName "Up" = .ok .up := rfl
  have hlong : 2 ≤ "PageUp".length := by decide
  have hmem : "PageUp" ∉ Key.table.map Prod.fst := by decide
  have hread : (Document.ofText? sparseFile).bind read? = some sparse := by decide +kernel
  have hload : ofText sparseFile = .ok sparse := by
    rw [ofText, hread]
    rfl
  exact ⟨⟨hup, (reload_stable.1 "Up" .up hup).1⟩, reload_stable.2.1 "PageUp" hlong hmem, hload,
    (reload_stable.2.2 sparseFile sparse hload).2⟩

end Config

end Labeling
