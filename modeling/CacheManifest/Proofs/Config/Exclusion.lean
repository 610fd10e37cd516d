/-
# Extensions and the ends of names

A file is left out by the text from the last dot of its name on. So an excluded extension
takes effect only if it begins with a dot and has no other, and then it is a matter of how
the name ends.

The text of a name is read from its bytes, which need not be text. A dot is a byte of its
own, whatever stands around it, and what is behind the last one is shown without a
replacement only if it is text. An extension without a replacement in it is therefore
found at the end of the text exactly if its bytes are found at the end of the name.
-/

import CacheManifest.Config.Basic
import CacheManifest.Proofs.Text.Encoded

namespace CacheManifest

open Utf8 (byteOf decodeLossy encode encodeChars lossyChars oneByte_dot replacement)

namespace Config

/-- An extension that a file can have: it begins with a dot and has no other one. -/
def Dotted (extension : String) : Prop :=
  extension.toList.head? = some '.' ∧ '.' ∉ extension.toList.tail

instance (extension : String) : Decidable (Dotted extension) := by
  unfold Dotted
  infer_instance

variable {extension name : String} {bytes front rest : Bytes}

theorem dotted_iff : Dotted extension ↔
    ∃ rest, extension.toList = '.' :: rest ∧ '.' ∉ rest := by
  rw [Dotted]
  cases extension.toList with
  | nil => simp
  | cons first others => simp

/-- A file is left out exactly if its extension is an excluded one. -/
theorem excludes_iff {config : Config} : config.excludes name = true ↔
    ∃ extension ∈ config.excludedExtensions, extension? name = some extension := by
  rw [excludes]
  cases extension? name <;> simp

/-- Two configurations that leave out the same files and directories by their names. -/
structure SameExclusions (config other : Config) : Prop where
  excludes : ∀ name, other.excludes name = config.excludes name
  ignores : ∀ name, other.ignores name = config.ignores name

theorem SameExclusions.refl (config : Config) : config.SameExclusions config :=
  ⟨fun _ => rfl, fun _ => rfl⟩

/-- What is left out does not depend on how often an exclusion is listed, nor where. -/
theorem sameExclusions_of_mem_iff {config other : Config}
    (extensions : ∀ extension,
      extension ∈ other.excludedExtensions ↔ extension ∈ config.excludedExtensions)
    (directories : ∀ name, name ∈ other.ignoredDirs ↔ name ∈ config.ignoredDirs) :
    config.SameExclusions other := by
  refine ⟨fun name => ?_, fun name => ?_⟩
  · apply Bool.eq_iff_iff.mpr
    simp only [excludes_iff, extensions]
  · apply Bool.eq_iff_iff.mpr
    simp only [ignores, List.contains_iff_mem, directories]

/-! ## Extensions of texts -/

/-- What is behind the last dot is the rest of the extension. -/
theorem extensionChars?_append_cons {before behind : List Char} (last : '.' ∉ behind) :
    extensionChars? (before ++ '.' :: behind) = some ('.' :: behind) := by
  have all_other : ∀ c ∈ behind.reverse, decide (c ≠ '.') = true := by
    intro c inside
    rw [decide_eq_true_eq]
    rintro rfl
    exact last (List.mem_reverse.mp inside)
  rw [extensionChars?, if_pos (by simp), List.reverse_append, List.reverse_cons,
    List.append_assoc, List.takeWhile_append_of_pos all_other]
  simp

/-- Whatever the name of a file is, its extension begins with a dot and has no other. -/
theorem dotted_of_extension? (found : extension? name = some extension) : Dotted extension := by
  obtain ⟨chars, cut, rfl⟩ := Option.map_eq_some_iff.mp found
  rw [extensionChars?] at cut
  split at cut
  · cases cut
    apply dotted_iff.mpr
    refine ⟨_, String.toList_ofList, fun again => ?_⟩
    have other := List.mem_takeWhile_imp (List.mem_reverse.mp again)
    simp at other
  · cases cut

/-! ## Extensions of names that are bytes -/

theorem exists_last_dot (inside : byteOf '.' ∈ bytes) :
    ∃ front rest, bytes = front ++ byteOf '.' :: rest ∧ byteOf '.' ∉ rest := by
  obtain ⟨behind, before, reversed, absent⟩ :=
    List.eq_append_cons_of_mem (List.mem_reverse.mpr inside)
  refine ⟨before.reverse, behind.reverse, ?_, by simpa using absent⟩
  rw [← List.reverse_reverse bytes, reversed]
  simp

/-- The bytes behind the last dot of a name are read by themselves. -/
theorem extension?_decodeLossy (last : byteOf '.' ∉ rest) :
    extension? (decodeLossy (front ++ byteOf '.' :: rest)) =
      some (String.ofList ('.' :: lossyChars rest)) := by
  have last_shown : '.' ∉ lossyChars rest := by
    rw [Utf8.mem_lossyChars oneByte_dot]
    exact last
  rw [extension?, decodeLossy, String.toList_ofList,
    Utf8.lossyChars_append_cons oneByte_dot, extensionChars?_append_cons last_shown,
    Option.map_some]

/-- A name that shows an extension has a dot, and the extension is what its last one and
the bytes behind it are shown as. -/
theorem exists_of_extension?_decodeLossy
    (found : extension? (decodeLossy bytes) = some extension) :
    ∃ front rest, bytes = front ++ byteOf '.' :: rest ∧ byteOf '.' ∉ rest ∧
      extension = String.ofList ('.' :: lossyChars rest) := by
  have shown : '.' ∈ lossyChars bytes := by
    by_contra absent
    simp [extension?, decodeLossy, extensionChars?, absent] at found
  obtain ⟨front, rest, rfl, last⟩ :=
    exists_last_dot ((Utf8.mem_lossyChars oneByte_dot).mp shown)
  rw [extension?_decodeLossy last, Option.some.injEq] at found
  exact ⟨front, rest, rfl, last, found.symm⟩

theorem encode_dotted (text : List Char) :
    encode (String.ofList ('.' :: text)) = byteOf '.' :: encodeChars text := by
  rw [encode, String.toList_ofList]
  rfl

/-- A name shows an extension that has no replacement in it exactly if the bytes of the
extension end the name. -/
theorem extension?_decodeLossy_eq_some_iff (legible : replacement ∉ extension.toList) :
    extension? (decodeLossy bytes) = some extension ↔
      Dotted extension ∧ encode extension <:+ bytes := by
  refine ⟨fun found => ?_, fun ⟨dotted, ends⟩ => ?_⟩
  · refine ⟨dotted_of_extension? found, ?_⟩
    obtain ⟨front, rest, rfl, -, rfl⟩ := exists_of_extension?_decodeLossy found
    have text : Utf8.WellFormed rest := by
      apply Utf8.wellFormed_of_replacement_not_mem
      intro broken
      apply legible
      rw [String.toList_ofList]
      exact List.mem_cons_of_mem _ broken
    rw [encode_dotted, Utf8.encodeChars_lossyChars text]
    exact List.suffix_append front _
  · obtain ⟨text, shape, last⟩ := dotted_iff.mp dotted
    obtain rfl : extension = String.ofList ('.' :: text) := by
      rw [← shape, String.ofList_toList]
    obtain ⟨front, rfl⟩ := ends
    have last_byte : byteOf '.' ∉ encodeChars text := by
      rw [Utf8.byteOf_mem_encodeChars oneByte_dot]
      exact last
    rw [encode_dotted, extension?_decodeLossy last_byte, Utf8.lossyChars_encodeChars]

/-- A configuration without the extensions that no file can have. -/
def withoutIdle (config : Config) : Config :=
  { config with
    excludedExtensions := config.excludedExtensions.filter fun extension => Dotted extension }

theorem excludes_withoutIdle (config : Config) (name : String) :
    config.withoutIdle.excludes name = config.excludes name := by
  apply Bool.eq_iff_iff.mpr
  rw [excludes_iff, excludes_iff]
  apply exists_congr
  intro extension
  rw [withoutIdle, List.mem_filter, decide_eq_true_eq, and_assoc]
  apply and_congr_right
  intro _
  exact and_iff_right_of_imp dotted_of_extension?

/-- If no excluded extension has a replacement in it, a file is left out exactly if the
bytes of one that begins with its only dot end the name of the file, be the name text or
not. Whatever the other ones are, they leave no file out. -/
theorem excludes_decodeLossy_iff {config : Config}
    (legible : ∀ extension ∈ config.excludedExtensions, replacement ∉ extension.toList)
    (bytes : Bytes) :
    (config.excludes (decodeLossy bytes) = true ↔
      ∃ extension ∈ config.excludedExtensions,
        Dotted extension ∧ encode extension <:+ bytes) ∧
      config.withoutIdle.excludes (decodeLossy bytes) = config.excludes (decodeLossy bytes) := by
  refine ⟨?_, excludes_withoutIdle config _⟩
  rw [excludes_iff]
  apply exists_congr
  intro extension
  apply and_congr_right
  intro listed
  exact extension?_decodeLossy_eq_some_iff (legible extension listed)

/-- Settings that exclude one extension which files can have, and two that no file has. -/
def archives : Config :=
  { Config.default with excludedExtensions := ["map", ".tar.gz", ".gz"] }

/-- The first bytes of a character of three. -/
def truncated : Bytes := [0xE2, 0x82]

/-- With a truncated character in front of its dots, an archive is left out for the last of
them. With one behind its end it is not. -/
theorem excludes_decodeLossy_truncated :
    (∀ extension ∈ archives.excludedExtensions, replacement ∉ extension.toList) ∧
      (archives.excludes (decodeLossy (truncated ++ encode ".tar.gz")) = true ∧
        ∃ extension ∈ archives.excludedExtensions,
          Dotted extension ∧ encode extension <:+ truncated ++ encode ".tar.gz") ∧
      archives.excludes (decodeLossy (encode ".tar.gz" ++ truncated)) = false ∧
        ¬ ∃ extension ∈ archives.excludedExtensions,
          Dotted extension ∧ encode extension <:+ encode ".tar.gz" ++ truncated := by
  have legible : ∀ extension ∈ archives.excludedExtensions, replacement ∉ extension.toList := by
    decide
  have left_out : archives.excludes (decodeLossy (truncated ++ encode ".tar.gz")) = true := by
    decide
  have kept : archives.excludes (decodeLossy (encode ".tar.gz" ++ truncated)) = false := by
    decide
  refine ⟨legible, ⟨left_out, (excludes_decodeLossy_iff legible _).1.mp left_out⟩, kept,
    fun ends => ?_⟩
  have also_left_out := (excludes_decodeLossy_iff legible _).1.mpr ends
  exact absurd (also_left_out.symm.trans kept) (by decide)

end Config

end CacheManifest
