import Mathlib.Logic.Basic
import ValueCore.Symbol
/-!
# Symbols and their texts

Parsing cuts a text at its first slash and forgets nothing, so the text of a parsed symbol is
the text that was parsed.  The other way round, a symbol is lost if the first slash of its text
is not the one between namespace and name, or if that slash is all that there is, since a lone
slash is a name.  What is left are the symbols that parsing can give (`Symbol.Readable`).
-/

namespace ValueCore.Symbol

/-! ## The first slash -/

theorem cutAtSlash_eq_none_iff {cs : List Char} : cutAtSlash cs = none ↔ '/' ∉ cs := by
  induction cs with
  | nil => simp [cutAtSlash]
  | cons c cs ih =>
    rw [cutAtSlash, List.mem_cons, not_or]
    split
    · next slash => simp [slash]
    · next other => rw [Option.map_eq_none_iff, ih, and_iff_right (Ne.symm other)]

theorem cutAtSlash_append {front : List Char} (first : '/' ∉ front) (back : List Char) :
    cutAtSlash (front ++ '/' :: back) = some (front, back) := by
  induction front with
  | nil => rfl
  | cons c front ih =>
    obtain ⟨other, rest⟩ := not_or.mp (List.mem_cons.not.mp first)
    rw [List.cons_append, cutAtSlash, if_neg (Ne.symm other), ih rest, Option.map_some]

/-- Nothing but a slash is taken out, and there is none before it. -/
theorem of_cutAtSlash {cs : List Char} {cut : List Char × List Char}
    (h : cutAtSlash cs = some cut) : cs = cut.1 ++ '/' :: cut.2 ∧ '/' ∉ cut.1 := by
  induction cs generalizing cut with
  | nil => cases h
  | cons c cs ih =>
    rw [cutAtSlash] at h
    split at h
    · next slash =>
      cases h
      exact ⟨by rw [slash, List.nil_append], List.not_mem_nil⟩
    · next other =>
      obtain ⟨later, found, rfl⟩ := Option.map_eq_some_iff.mp h
      obtain ⟨joined, first⟩ := ih found
      exact ⟨by rw [joined, List.cons_append],
        List.mem_cons.not.mpr (not_or.mpr ⟨Ne.symm other, first⟩)⟩

/-! ## Texts with a namespace -/

section Joined

variable {ns name : String}

theorem toList_joined (ns name : String) :
    (ns ++ "/" ++ name).toList = ns.toList ++ '/' :: name.toList := by
  rw [String.toList_append, String.toList_append, List.append_assoc]
  rfl

/-- A joined text is the lone slash only if there is nothing to join. -/
theorem joined_eq_slash_iff : ns ++ "/" ++ name = "/" ↔ ns = "" ∧ name = "" := by
  constructor
  · intro lone
    -- The slash in between takes up the whole length.
    have lengths := congrArg String.length lone
    rw [String.length_append, String.length_append] at lengths
    have slash : "/".length = 1 := by rfl
    exact ⟨String.length_eq_zero_iff.mp (by omega), String.length_eq_zero_iff.mp (by omega)⟩
  · rintro ⟨rfl, rfl⟩
    rfl

end Joined

/-! ## Reading back -/

/-- A symbol that parsing gives: a name without a slash, or the lone slash, or a namespace
without a slash and a name that are not both empty. -/
def Readable (s : Symbol) : Prop :=
  match s.ns? with
  | none => '/' ∉ s.name.toList ∨ s.name = "/"
  | some ns => '/' ∉ ns.toList ∧ ¬(ns = "" ∧ s.name = "")

/-- A parsed symbol has the text that was parsed. -/
theorem parse_spec (t : String) : (parse t).text = t ∧ (parse t).Readable := by
  rw [parse]
  split
  · next lone => exact ⟨rfl, .inr lone⟩
  · next more =>
    split
    · next uncut => exact ⟨rfl, .inl (cutAtSlash_eq_none_iff.mp uncut)⟩
    · next cut found =>
      obtain ⟨joined, first⟩ := of_cutAtSlash found
      have whole : String.ofList cut.1 ++ "/" ++ String.ofList cut.2 = t := by
        rw [← String.toList_inj, toList_joined, String.toList_ofList, String.toList_ofList, joined]
      refine ⟨whole, by rwa [String.toList_ofList], fun empty => more ?_⟩
      rw [← whole]
      exact joined_eq_slash_iff.mpr empty

/-- A readable symbol is read back. -/
theorem parse_text {s : Symbol} (readable : s.Readable) : parse s.text = s := by
  obtain ⟨ns?, name⟩ := s
  cases ns? with
  | none =>
    rcases readable with uncut | rfl
    · rw [text, parse, cutAtSlash_eq_none_iff.mpr uncut]
      exact ite_self _
    · rfl
  | some ns =>
    obtain ⟨first, more⟩ := readable
    rw [text, parse, if_neg (joined_eq_slash_iff.not.mpr more), toList_joined,
      cutAtSlash_append first]
    simp only [String.ofList_toList]

/-- Parsing loses nothing of a text.  A symbol is read back from its text just if it has no
namespace and its name has no slash or is the lone slash, or if there is no slash in its namespace
and not both of its parts are empty.  These are the symbols that parsing gives. -/
theorem parse_text_iff :
    (∀ t, (parse t).text = t) ∧
      ∀ s : Symbol, (parse s.text = s ↔ s.Readable) ∧ (s.Readable ↔ ∃ t, parse t = s) := by
  have read_back : ∀ s : Symbol, parse s.text = s → s.Readable := by
    intro s same
    rw [← same]
    exact (parse_spec s.text).2
  refine ⟨fun t => (parse_spec t).1, fun s => ⟨⟨read_back s, parse_text⟩, ?_⟩⟩
  constructor
  · intro readable
    exact ⟨s.text, parse_text readable⟩
  · rintro ⟨t, rfl⟩
    exact (parse_spec t).2

example : parse (text ⟨some "", "/"⟩) = ⟨some "", "/"⟩ := by decide

end ValueCore.Symbol
