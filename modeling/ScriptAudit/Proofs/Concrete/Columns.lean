import ScriptAudit.Proofs.Concrete.Conversion
import ScriptAudit.Proofs.Text.Utf8

/-!
# Columns count characters

A parser counts columns in bytes. The column of a node is one more than the number of characters
that the bytes between the start of its line and the node are read as. In a source that is the
encoding of a text these are the characters of the text, and it does not matter what stands before
the line or behind the node.

In any source the bytes in front of one node of a line are a beginning of the bytes in front of a
later one. The beginning may end inside a sequence, where the two readings part; the later one still
has no fewer characters, and no more than it has bytes.
-/

set_option autoImplicit false

namespace ScriptAudit

namespace Source

open ScriptAudit.Text

/-- An offset that counts from the beginning is cut at the end. -/
theorem clamp_natCast (size offset : Nat) : clamp size offset = min offset size := by
  rw [clamp, if_neg (by omega), Int.toNat_natCast]

/-- Offsets that count from the beginning need no care: past the end there are no bytes. -/
theorem slice_natCast (source : Source) (start stop : Nat) :
    source.slice start stop = (source.take stop).drop start := by
  rw [slice, clamp_natCast, clamp_natCast, ← List.take_eq_take_min]
  rcases Nat.le_total start source.length with h | h
  · rw [Nat.min_eq_left h]
  · rw [Nat.min_eq_right h, List.drop_of_length_le, List.drop_of_length_le]
    · rw [List.length_take]
      omega
    · rw [List.length_take]
      omega

/-- The column of an offset is read off the bytes of its line in front of it. -/
theorem characterColumn_eq (source : Source) (lineStart column : Nat) :
    source.characterColumn (lineStart + column) column =
      (Utf8.decode ((source.drop lineStart).take column)).length + 1 := by
  have hstart : ((lineStart + column : Nat) : Int) - (column : Int) = (lineStart : Nat) := by omega
  rw [characterColumn, hstart, slice_natCast, List.drop_take, Nat.add_sub_cancel_left]

/-- In an encoded text the characters in front of an offset on its line are counted. -/
theorem characterColumn_encode (before line behind : List Char) :
    characterColumn (Utf8.encode (before ++ line ++ behind)) (Utf8.encode (before ++ line)).length
      (Utf8.encode line).length = line.length + 1 := by
  rw [Utf8.encode_append, Utf8.encode_append, List.length_append, characterColumn_eq,
    List.append_assoc, List.drop_left, List.take_left, Utf8.decode_encode]

/-- On one line a later offset has no smaller column. -/
theorem characterColumn_mono (source : Source) (lineStart : Nat) {first second : Nat}
    (h : first ≤ second) :
    source.characterColumn (lineStart + first) first ≤
      source.characterColumn (lineStart + second) second := by
  have hsplit : (source.drop lineStart).take second =
      (source.drop lineStart).take first ++
        ((source.drop lineStart).drop first).take (second - first) := by
    rw [← List.take_add, Nat.add_sub_cancel' h]
  rw [characterColumn_eq, characterColumn_eq, hsplit]
  exact Nat.add_le_add_right (Utf8.length_decodeFrom_append none _ _) 1

/-- There are no more characters than bytes. -/
theorem characterColumn_le (source : Source) (lineStart column : Nat) :
    source.characterColumn (lineStart + column) column ≤ column + 1 := by
  rw [characterColumn_eq]
  have hdecode := Utf8.length_decode_le ((source.drop lineStart).take column)
  rw [List.length_take] at hdecode
  omega

end Source

namespace Concrete.Tree

open ScriptAudit.Text

/-- A node has the column of its tree without the parentheses. -/
theorem column_toNode (source : Source) (t : Tree) :
    (t.toNode source).head.column =
      source.characterColumn t.unwrap.label.start t.unwrap.label.column := by
  rw [← toNode_unwrap, head_toNode source t.unwrap_spec.1]
  rfl

/-- **Columns count characters.** Parentheses do not become nodes, so a tree is placed where it
starts without those around it; only a parenthesized expression has any to be taken off. Take a text
in three parts, of which the first may be all lines before and the second the beginning of a line. A
tree that starts behind the second part, as many bytes into its line as that part has, becomes a node
whose column is one more than the number of characters of the second part. And in any source,
well-formed or not, of two trees on one line the one that starts later has no smaller column than the
other, and its column is at most one more than the number of bytes in front of it. -/
theorem column_counts_characters :
    (∀ (t : Tree) (before line behind : List Char),
      t.unwrap.label.start = (Utf8.encode (before ++ line)).length →
      t.unwrap.label.column = (Utf8.encode line).length →
      (t.toNode (Utf8.encode (before ++ line ++ behind))).head.column = line.length + 1) ∧
    (∀ (source : Source) (s t : Tree) (lineStart : Nat),
      s.unwrap.label.start = lineStart + s.unwrap.label.column →
      t.unwrap.label.start = lineStart + t.unwrap.label.column →
      s.unwrap.label.start ≤ t.unwrap.label.start →
      (s.toNode source).head.column ≤ (t.toNode source).head.column ∧
        (t.toNode source).head.column ≤ t.unwrap.label.column + 1) ∧
    (∀ t : Tree, t.label.kind ≠ "parenthesized_expression" → t.unwrap = t) ∧
    ∀ (t inner : Tree) (rest : List Tree), t.label.kind = "parenthesized_expression" →
      t.parts = inner :: rest → t.unwrap = inner.unwrap := by
  refine ⟨?_, ?_, fun t hkind => unwrap_of_isBare (isBare_of_kind_ne hkind),
    fun t inner rest hkind hparts => unwrap_of_parts hkind hparts⟩
  · intro t before line behind hstart hcolumn
    rw [column_toNode, hstart, hcolumn, Source.characterColumn_encode]
    rfl
  · intro source s t lineStart hs ht hle
    have hmono := source.characterColumn_mono lineStart
      (show s.unwrap.label.column ≤ t.unwrap.label.column by omega)
    have hbound := source.characterColumn_le lineStart t.unwrap.label.column
    rw [column_toNode, column_toNode, hs, ht]
    omega

/-- A name with the given byte offset and byte column. -/
def nameAt (start column : Nat) : Tree :=
  node ⟨"identifier", start, start + 1, 0, column, none, true⟩ []

/-- A name has no parentheses around it. -/
theorem unwrap_nameAt (start column : Nat) : (nameAt start column).unwrap = nameAt start column :=
  unwrap_of_isBare (isBare_of_kind_ne (show "identifier" ≠ "parenthesized_expression" by decide))

/-- In `a`, line feed, `é b` the name `b` stands three bytes and two characters into its line. In
the bytes E2 82 78, where a sequence of three is broken off by an `x`, the two bytes before the `x`
are one character, and a name that starts at the `x` is not before one that starts inside the
sequence. -/
theorem column_counts_characters_brokenSequence :
    ((nameAt 5 3).toNode (Utf8.encode ['a', '\n', 'é', ' ', 'b'])).head.column = 3 ∧
      ((nameAt 1 1).toNode [0xE2, 0x82, 0x78]).head.column ≤
        ((nameAt 2 2).toNode [0xE2, 0x82, 0x78]).head.column ∧
      ((nameAt 2 2).toNode [0xE2, 0x82, 0x78]).head.column ≤ (2 : Int) + 1 := by
  obtain ⟨htext, hbytes, -⟩ := column_counts_characters
  constructor
  · exact htext (nameAt 5 3) ['a', '\n'] ['é', ' '] ['b'] (by rw [unwrap_nameAt]; rfl)
      (by rw [unwrap_nameAt]; rfl)
  · have hline := hbytes [0xE2, 0x82, 0x78] (nameAt 1 1) (nameAt 2 2) 0
    rw [unwrap_nameAt, unwrap_nameAt] at hline
    exact hline rfl rfl (by decide)

/-- A name that starts at the given byte offset, in parentheses that start at offset 0. -/
def namedInParentheses (field : Option String) (start row column : Nat) : Tree :=
  node ⟨"parenthesized_expression", 0, start + 2, 0, 0, field, true⟩
    [node ⟨"(", 0, 1, 0, 0, none, false⟩ [],
      node ⟨"identifier", start, start + 1, row, column, none, true⟩ [],
      node ⟨")", start + 1, start + 2, row, column + 1, none, false⟩ []]

/-- The tree of a name in parentheses, a dot and another name. -/
def accessOfParentheses (start row column : Nat) : Tree :=
  node ⟨"member_expression", 0, start + 4, 0, 0, none, true⟩
    [namedInParentheses (some "object") start row column,
      node ⟨".", start + 2, start + 3, row, column + 2, none, false⟩ [],
      node ⟨"property_identifier", start + 3, start + 4, row, column + 3, some "property", true⟩ []]

/-- Parentheses themselves are not placed where they start. Those of `(x)` start behind no characters
and become a node at column two. If a line feed and four blanks stand before the `x` and `.y` behind
the parentheses, these start on one line with the access, and not behind it; yet they become a node
at column five, and the access one at column one. -/
theorem column_differs_for_parentheses :
    let plain := namedInParentheses none 1 0 1
    let broken := namedInParentheses (some "object") 6 1 4
    let access := accessOfParentheses 6 1 4
    let source := Utf8.encode "(\n    x).y".toList
    (plain.label.start = (Utf8.encode ([] ++ [])).length ∧
      plain.label.column = (Utf8.encode []).length ∧
      (plain.toNode (Utf8.encode ([] ++ [] ++ "(x)".toList))).head.column = 2) ∧
    (broken.label.start = 0 + broken.label.column ∧
      access.label.start = 0 + access.label.column ∧
      broken.label.start ≤ access.label.start ∧
      (broken.toNode source).head.column = 5 ∧ (access.toNode source).head.column = 1) := by
  decide +kernel

end Concrete.Tree

end ScriptAudit
