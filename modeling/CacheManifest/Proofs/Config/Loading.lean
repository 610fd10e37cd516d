/-
# Loading a configuration file

The configuration that a file gives is the one that its JSON value gives. Only the value
counts: neither the blanks nor the escapes in the text matter, nor the order of the keys.
A file with any other text, or with no text at all, gives a failure and never the defaults.

That is the same whether the file is loaded by its path or found in a project root.
-/

import CacheManifest.Proofs.Config.Acceptance
import CacheManifest.Proofs.Config.Discovery
import CacheManifest.Proofs.Text.Encoded

namespace CacheManifest

namespace Config

open Json (Document)

variable {fs : Filesystem} {path : Path} {content : Bytes} {text : String} {config : Config}

/-- Content that is the text of a value. -/
def Holds (content : Bytes) (value : Json) : Prop :=
  ∃ text : String, content = Utf8.encode text ∧ Document value text.toList

/-- What a configuration file of some content gives. -/
structure Given (path : Path) (content : Bytes) (outcome : Except Failure Config) : Prop where
  loaded : ∀ config, outcome = .ok config ↔ ∃ value, Holds content value ∧ Gives value config
  accepted : (∃ config, outcome = .ok config) ↔ ∃ value, Holds content value ∧ Admissible value
  reordered : ∀ {fields others : List (String × Json)} {config : Config}, fields.Perm others →
    Holds content (.object others) → Gives (.object fields) config → outcome = .ok config
  refused : ∀ {text : String}, content = Utf8.encode text →
    (∀ value, Document value text.toList → ¬ Admissible value) →
      ∃ cause, outcome = .error (.invalidConfig path cause)
  unreadable : (∀ text, content ≠ Utf8.encode text) → outcome = .error (.system path .notText)

/-! ## Loading by a path -/

theorem load_encode (stored : fs.read path = .ok (Utf8.encode text)) :
    load fs path = parse path text := by
  rw [load, Filesystem.readText, stored]
  simp only [Utf8.decode?_eq_some_iff.mpr rfl]

theorem load_of_not_text (stored : fs.read path = .ok content)
    (broken : ∀ text, content ≠ Utf8.encode text) :
    load fs path = .error (.system path .notText) := by
  have none : Utf8.decode? content = none :=
    Option.eq_none_iff_forall_ne_some.mpr fun text read =>
      broken text (Utf8.decode?_eq_some_iff.mp read)
  rw [load, Filesystem.readText, stored]
  simp only [none]

theorem parse_eq_ok_iff :
    parse path text = .ok config ↔ ∃ value, Document value text.toList ∧ Gives value config := by
  rw [parse, ofText, mapError_eq_ok_iff, mapError_eq_ok_iff, readChars_eq_ok_iff]

theorem holds_encode_iff {value : Json} :
    Holds (Utf8.encode text) value ↔ Document value text.toList := by
  constructor
  · rintro ⟨other, same, document⟩
    have read : some text = some other :=
      (Utf8.decode?_eq_some_iff.mpr rfl).symm.trans (Utf8.decode?_eq_some_iff.mpr same)
    cases read
    exact document
  · intro document
    exact ⟨text, rfl, document⟩

/-- A configuration is loaded from the texts of the values that give it, and only from
them. -/
theorem load_eq_ok_iff (stored : fs.read path = .ok content) :
    load fs path = .ok config ↔ ∃ value, Holds content value ∧ Gives value config := by
  by_cases readable : ∃ text, content = Utf8.encode text
  · obtain ⟨text, rfl⟩ := readable
    simp only [load_encode stored, parse_eq_ok_iff, holds_encode_iff]
  · have broken := not_exists.mp readable
    rw [load_of_not_text stored broken]
    constructor
    · nofun
    · rintro ⟨value, ⟨text, same, -⟩, -⟩
      exact absurd same (broken text)

/-- A text that is not loaded is an invalid configuration. -/
theorem exists_invalid_of_not_ok (stored : fs.read path = .ok (Utf8.encode text))
    (rejected : ¬ ∃ config, load fs path = .ok config) :
    ∃ cause, load fs path = .error (.invalidConfig path cause) := by
  rw [load_encode stored] at rejected ⊢
  rw [parse] at rejected ⊢
  cases read : ofText text with
  | ok config => exact absurd ⟨config, by rw [read]; rfl⟩ rejected
  | error cause => exact ⟨cause, rfl⟩

/-- Loading a file comes to what its content gives, and so does finding it in a project
root. -/
theorem load_exact (stored : fs.read path = .ok content) :
    Given path content (load fs path) ∧
      ∀ root : Path, root.join fileName = path → discover fs root = load fs path := by
  have accepted : (∃ config, load fs path = .ok config) ↔
      ∃ value, Holds content value ∧ Admissible value := by
    simp only [load_eq_ok_iff stored, ← exists_gives_iff]
    exact ⟨fun ⟨config, value, holds, gives⟩ => ⟨value, holds, config, gives⟩,
      fun ⟨value, holds, config, gives⟩ => ⟨config, value, holds, gives⟩⟩
  refine ⟨?_, ?_⟩
  · constructor
    case loaded => exact fun config => load_eq_ok_iff stored
    case accepted => exact accepted
    case reordered =>
      intro fields others config same holds gives
      exact (load_eq_ok_iff stored).mpr ⟨_, holds, gives.of_perm same⟩
    case refused =>
      rintro text rfl other
      refine exists_invalid_of_not_ok stored (mt accepted.mp ?_)
      rintro ⟨value, holds, admissible⟩
      exact other value (holds_encode_iff.mp holds) admissible
    case unreadable => exact load_of_not_text stored
  · rintro root rfl
    apply discover_of_present
    intro missing
    rw [Filesystem.read, missing] at stored
    cases stored

theorem valid_fileName : Name.Valid fileName.bytes := by decide

/-- A root directory with a configuration file of some content. -/
def configured (content : Bytes) : Filesystem where
  top :=
    .directory .newDirectory [⟨fileName.bytes, valid_fileName⟩] (List.nodup_singleton _) fun _ =>
      .file .newFile content
  workingDirectory := []

/-- A configuration with an escape in a key, and with an output outside the basic plane. -/
def escapedText : String :=
  " \x7b\"ignored_dirs\" : [] ,\"\\u006Futput\":\"\\ud83d\\uDE00\"\x7d\n"

/-- The escapes are read, and what is not given is as in the defaults. -/
theorem load_exact_escaped :
    Given (.ofString "/mkappcache.json") (Utf8.encode escapedText)
        (load (configured (Utf8.encode escapedText)) (.ofString "/mkappcache.json")) ∧
      discover (configured (Utf8.encode escapedText)) (.ofString "/") =
        .ok { default with
          output := .ofString (String.ofList [Char.ofNat 0x1F600])
          ignoredDirs := [] } := by
  have stored : (configured (Utf8.encode escapedText)).read (.ofString "/mkappcache.json") =
      .ok (Utf8.encode escapedText) := by rfl
  obtain ⟨given, found⟩ := load_exact stored
  refine ⟨given, ?_⟩
  rw [found (.ofString "/") (by decide)]
  decide +kernel

end Config

end CacheManifest
