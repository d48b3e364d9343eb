import ScriptAudit.Proofs.Node.Routes
import ScriptAudit.Proofs.Scan.Isolation

/-!
# The neighbourhood of a read

The rule for input fields looks at a read of `value` and searches the tree for the first node that
does not start before it. In a tree whose spans are in order that node is on the route from the root
to the read. So there always is one, the read lies in it, and every lookup of an element inside the
read is among those that the rule reports.
-/

set_option autoImplicit false

namespace ScriptAudit

/-- A diagnostic stands at the place of its remark. -/
theorem Remark.place_of_diagnostic {remark : Remark} {rule : Rule} {d : Diagnostic}
    (h : remark.diagnostic rule = .ok d) :
    (d.line : Int) = remark.place.line ∧
      d.column.map Int.ofNat = some remark.place.column := by
  obtain ⟨-, -, -, hline, hcolumn, -⟩ := fields_of_diagnostic h
  have hline_pos := d.line_pos
  have hcolumn_pos := d.column_pos _ hcolumn
  constructor
  · omega
  · rw [hcolumn, Option.map_some, Int.ofNat_eq_natCast]
    congr 1
    omega

namespace Rule

/-- What a check gives is what the rule has to say, remark by remark. -/
theorem map_of_check_eq_ok {rule : Rule} {tree : Option Node} {n : Node} {ds : List Diagnostic}
    (h : rule.check tree n = .ok ds) :
    (ds.map fun d => (d.ruleId, d.severity, d.message, (d.line : Int), d.column.map Int.ofNat)) =
      (rule.remarks tree n).map fun remark =>
        (rule.id, remark.severity, remark.message, remark.place.line,
          some remark.place.column) := by
  apply map_eq_of_mapM_eq_ok _ h
  intro remark d hd
  obtain ⟨hid, hseverity, hmessage, -⟩ := Remark.fields_of_diagnostic hd
  obtain ⟨hline, hcolumn⟩ := Remark.place_of_diagnostic hd
  rw [hid, hseverity, hmessage, hline, hcolumn]

variable {root m anchor : Node}

/-- The remarks on a read are on the look-ups in what is found behind its start. -/
theorem remarks_of_firstAfter? (hread : isValueRead m = true)
    (hanchor : root.firstAfter? m.head.start = some anchor) :
    inputFieldAccess.remarks (some root) m =
      (anchor.walk.filter isElementLookup).map fun inner =>
        { place := inner.head, severity := .info,
          message := "direct input field access, sanitization required" } := by
  have hneighbourhood : neighbourhood? (some root) m = some anchor := hanchor
  simp only [remarks, if_pos hread, hneighbourhood]

/-- Where the search has an answer for every read of `value`, no rule has anything to log. -/
theorem notes_eq_nil {n : Node} (rule : Rule)
    (h : isValueRead n = true → ∃ anchor, root.firstAfter? n.head.start = some anchor) :
    rule.notes (Scan.visibleTree rule root) n = [] := by
  unfold notes
  apply if_neg
  rintro ⟨rfl, hread, -, hnone⟩
  obtain ⟨anchor, hanchor⟩ := h hread
  have hneighbourhood : neighbourhood? (Scan.visibleTree .inputFieldAccess root) n = some anchor :=
    hanchor
  rw [hneighbourhood] at hnone
  cases hnone

/-- A check makes a diagnostic of every lookup, and fails only if a lookup has no proper place. -/
theorem check_eq_mapM (hread : isValueRead m = true)
    (hanchor : root.firstAfter? m.head.start = some anchor) :
    inputFieldAccess.check (some root) m =
      (anchor.walk.filter isElementLookup).mapM fun inner =>
        Diagnostic.at? "input-field-access" .info
          "direct input field access, sanitization required" inner.head.line inner.head.column := by
  rw [check, remarks_of_firstAfter? hread hanchor, List.mapM_map]
  rfl

/-- The check of a read reports the look-ups in what is found behind its start. -/
theorem check_of_firstAfter? (hread : isValueRead m = true)
    (hanchor : root.firstAfter? m.head.start = some anchor)
    (hplaced : ∀ inner ∈ anchor.walk.filter isElementLookup, inner.IsPlaced) :
    ∃ ds, inputFieldAccess.check (some root) m = .ok ds ∧
      (ds.map fun d => (d.ruleId, d.severity, d.message, (d.line : Int), d.column.map Int.ofNat)) =
        (anchor.walk.filter isElementLookup).map fun inner =>
          ("input-field-access", .info, "direct input field access, sanitization required",
            inner.head.line, some inner.head.column) := by
  have hremarks := remarks_of_firstAfter? hread hanchor
  have hgood : ∃ ds, inputFieldAccess.check (some root) m = .ok ds := by
    apply exists_mapM_eq_ok
    intro remark hremark
    rw [hremarks] at hremark
    obtain ⟨inner, hinner, rfl⟩ := List.mem_map.mp hremark
    obtain ⟨hline, hcolumn⟩ := hplaced inner hinner
    exact Remark.exists_diagnostic_eq_ok _ _ hline hcolumn
  obtain ⟨ds, hds⟩ := hgood
  refine ⟨ds, hds, ?_⟩
  rw [map_of_check_eq_ok hds, hremarks, List.map_map]
  rfl

end Rule

namespace Scan

open ScriptAudit.Node

/-- **The neighbourhood of a read contains the read.** Let a tree have no empty nodes, children that
lie within their parents, and siblings that come one behind the other. Then no rule ever finds that
there is no node behind a read of `value`. For every such read in the tree the search answers with
the outermost node on the route from the root that starts where the read starts. The lookups of
elements inside the read are among those below that node, and a check makes a diagnostic of exactly
these, in pre-order. If they all stand at proper places it goes well, and each is reported where it
stands. -/
theorem check_valueRead (root : Node) (hsolid : root.Solid) (hnested : root.Nested)
    (hordered : root.Ordered) :
    (∀ n ∈ root.walk, ∀ rule : Rule, rule.notes (visibleTree rule root) n = []) ∧
    ∀ m ∈ root.walk, Rule.isValueRead m = true →
      ∃ anchor, root.firstAfter? m.head.start = some anchor ∧
        (∃ path, Route root m path) ∧
        (∀ path, Route root m path →
          path.find? (fun n => n.head.start = m.head.start) = some anchor) ∧
        m.walk.filter Rule.isElementLookup <:+: anchor.walk.filter Rule.isElementLookup ∧
        Rule.inputFieldAccess.check (some root) m =
          (anchor.walk.filter Rule.isElementLookup).mapM (fun inner =>
            Diagnostic.at? "input-field-access" .info
              "direct input field access, sanitization required" inner.head.line
              inner.head.column) ∧
        ((∀ inner ∈ anchor.walk.filter Rule.isElementLookup, inner.IsPlaced) →
          ∃ ds, Rule.inputFieldAccess.check (some root) m = .ok ds ∧
            (ds.map fun d =>
                (d.ruleId, d.severity, d.message, (d.line : Int), d.column.map Int.ofNat)) =
              (anchor.walk.filter Rule.isElementLookup).map fun inner =>
                ("input-field-access", .info, "direct input field access, sanitization required",
                  inner.head.line, some inner.head.column)) := by
  have hanswer {m : Node} (hm : m ∈ root.walk) :
      ∃ path anchor, Route root m path ∧ root.firstAfter? m.head.start = some anchor ∧
        path.find? (fun n => n.head.start = m.head.start) = some anchor := by
    rw [walk_eq_preorder] at hm
    obtain ⟨path, hroute⟩ := exists_route hm
    obtain ⟨anchor, hanchor⟩ := hroute.exists_firstAfter? hsolid hnested hordered
    exact ⟨path, anchor, hroute, hanchor⟩
  constructor
  · intro n hn rule
    apply rule.notes_eq_nil
    intro _
    obtain ⟨path, anchor, -, hanchor, -⟩ := hanswer hn
    exact ⟨anchor, hanchor⟩
  · intro m hm hread
    obtain ⟨path, anchor, hroute, hanchor, hfind⟩ := hanswer hm
    refine ⟨anchor, hanchor, ⟨path, hroute⟩, ?_, ?_, Rule.check_eq_mapM hread hanchor,
      Rule.check_of_firstAfter? hread hanchor⟩
    · intro path' hroute'
      obtain ⟨anchor', hanchor', hfind'⟩ := hroute'.exists_firstAfter? hsolid hnested hordered
      rw [hfind', ← hanchor', hanchor]
    · have hbelow : m ∈ anchor.preorder :=
        hroute.mem_preorder_of_mem (List.mem_of_find?_eq_some hfind)
      rw [walk_eq_preorder, walk_eq_preorder]
      exact (preorder_isInfix_of_mem hbelow).filter _

/-- A name at an offset of the first line. -/
def nameAt (start : Int) (name : String) : Node :=
  .identifier ⟨"Identifier", start, start + name.length, 1, start + 1⟩ (some name)

/-- A look-up of an element at an offset of the first line. -/
def lookupAt (start : Int) : Node :=
  .member ⟨"MemberExpression", start, start + 16, 1, start + 1⟩ (some (nameAt start "d"))
    (some (nameAt (start + 2) "getElementById")) false

/-- The call in `d.getElementById().value`, at offset 2. -/
def lookupCall : Node := .call ⟨"CallExpression", 2, 20, 1, 3⟩ (some (lookupAt 2)) []

/-- The read in `d.getElementById().value`, at offset 2. -/
def fieldRead : Node :=
  .member ⟨"MemberExpression", 2, 26, 1, 3⟩ (some lookupCall) (some (nameAt 21 "value")) false

/-- The sum `d.getElementById().value+d.getElementById`, at offset 2. -/
def fieldSum : Node :=
  .binary ⟨"BinaryExpression", 2, 43, 1, 3⟩ (some "+") (some fieldRead) (some (lookupAt 27))

/-- The tree of `f;d.getElementById().value+d.getElementById`. -/
def readScript : Node := .generic ⟨"Program", 0, 43, 1, 1⟩ [nameAt 0 "f", fieldSum]

/-- The nodes of the sum in order. -/
theorem preorder_fieldSum :
    fieldSum.preorder =
      [fieldSum, fieldRead, lookupCall, lookupAt 2, nameAt 2 "d", nameAt 4 "getElementById",
        nameAt 21 "value", lookupAt 27, nameAt 27 "d", nameAt 29 "getElementById"] := by
  simp [fieldSum, fieldRead, lookupCall, lookupAt, nameAt, preorder_eq, children]

/-- The nodes of the script in order. -/
theorem preorder_readScript :
    readScript.preorder = readScript :: nameAt 0 "f" :: fieldSum.preorder := by
  rw [preorder_eq]
  simp [readScript, nameAt, preorder_eq, children]

/-- The neighbourhood of the read is the whole sum, so the lookup beside the read is reported behind
the one inside it. -/
theorem check_valueRead_readScript :
    readScript.Solid ∧ readScript.Nested ∧ readScript.Ordered ∧ fieldRead ∈ readScript.walk ∧
      Rule.isValueRead fieldRead = true ∧
      readScript.firstAfter? fieldRead.head.start = some fieldSum ∧
      ∃ ds, Rule.inputFieldAccess.check (some readScript) fieldRead = .ok ds ∧
        ds.map (fun d => d.column.map Int.ofNat) = [some 3, some 28] := by
  have hpreorder := preorder_readScript
  rw [preorder_fieldSum] at hpreorder
  have hsolid : readScript.Solid := by
    unfold Solid
    rw [hpreorder]
    decide
  have hnested : readScript.Nested := by
    have h : ∀ n ∈ readScript.preorder, n.head.start ≤ n.head.stop ∧
        ∀ c ∈ n.children, n.head.start ≤ c.head.start ∧ c.head.stop ≤ n.head.stop := by
      rw [hpreorder]
      decide
    exact fun n hn => ⟨(h n hn).1, (h n hn).2⟩
  have hordered : readScript.Ordered := by
    unfold Ordered
    rw [hpreorder]
    decide
  have hmem : fieldRead ∈ readScript.walk := by
    rw [walk_eq_preorder, hpreorder]
    simp
  have hread : Rule.isValueRead fieldRead = true := by decide
  have hfirst : readScript.firstAfter? fieldRead.head.start = some fieldSum := by
    rw [firstAfter?_eq_find?_preorder hnested, hpreorder]
    rfl
  have hlookups : fieldSum.walk.filter Rule.isElementLookup = [lookupAt 2, lookupAt 27] := by
    rw [walk_eq_preorder, preorder_fieldSum]
    rfl
  obtain ⟨anchor, hanchor, -, -, -, -, hcheck⟩ :=
    (check_valueRead readScript hsolid hnested hordered).2 fieldRead hmem hread
  obtain rfl : fieldSum = anchor := Option.some.inj (hfirst.symm.trans hanchor)
  rw [hlookups] at hcheck
  obtain ⟨ds, hds, hreported⟩ := hcheck (by simp [IsPlaced, lookupAt, head])
  refine ⟨hsolid, hnested, hordered, hmem, hread, hfirst, ds, hds, ?_⟩
  have hcolumns := congrArg (List.map fun reported => reported.2.2.2.2) hreported
  rwa [List.map_map, List.map_map] at hcolumns

end Scan

end ScriptAudit
