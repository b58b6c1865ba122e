import Mathlib.Data.List.Flatten
import Portugol.Proofs.Syntax.Preorder

/-! # What the text of a graph tells

Three things are read back from the text of a graph. A label is known from how it is written (`unescape?_escape`). The
number in the line of an edge and the label in that of a node are known from these lines, so the lines tell the labels
with the numbers of the parents, and these tell the tree (`lines_inj`). No line has a line feed inside it, as no written
label has one, so the text tells where its lines end (`join_lines_inj`).

The lines are written with a number that counts the nodes on the way. That they are in order the lines of the nodes in
preorder, with the numbers that parents have in the whole tree, is `lines_none`. -/
namespace Portugol

/-! ## Labels -/

namespace Drawing

def escapeChar (c : Char) : List Char :=
  if c = '\\' then ['\\', '\\'] else if c = '"' then ['\\', '"'] else if c = '\n' then ['\\', 'n'] else [c]

/-- Of what is put in for a character, nothing is replaced again. -/
theorem toList_escape (label : String) : (escape label).toList = label.toList.flatMap escapeChar := by
  simp only [escape, replace, String.toList_ofList, List.flatMap_assoc]
  refine List.flatMap_congr fun c _ => ?_
  rw [escapeChar]
  split
  · rfl
  split
  · next hquote =>
    subst hquote
    rfl
  split
  · next hfeed =>
    subst hfeed
    rfl
  · next hquote hfeed => simp [hquote, hfeed]

/-- The label that an escaped text stands for. There is none for a text with a line feed, nor for one with a quote or a
backslash that is not escaped. -/
def unescape? : List Char → Option (List Char)
  | [] => some []
  | c :: rest =>
    if c = '\\' then
      match rest with
      | '\\' :: rest => (unescape? rest).map ('\\' :: ·)
      | '"' :: rest => (unescape? rest).map ('"' :: ·)
      | 'n' :: rest => (unescape? rest).map ('\n' :: ·)
      | _ => none
    else if c = '"' || c = '\n' then none
    else (unescape? rest).map (c :: ·)

theorem unescape?_escapeChar (c : Char) (rest : List Char) :
    unescape? (escapeChar c ++ rest) = (unescape? rest).map (c :: ·) := by
  by_cases hbackslash : c = '\\'
  · subst hbackslash
    rfl
  by_cases hquote : c = '"'
  · subst hquote
    rfl
  by_cases hfeed : c = '\n'
  · subst hfeed
    rfl
  · have hplain : escapeChar c = [c] := by simp only [escapeChar, hbackslash, hquote, hfeed, if_false]
    rw [hplain, List.singleton_append, unescape?.eq_def]
    simp only [hbackslash, hquote, hfeed, decide_false, Bool.or_false, Bool.false_eq_true, if_false]

/-- A label is known from how it is written. -/
theorem unescape?_escape (label : String) : unescape? (escape label).toList = some label.toList := by
  rw [toList_escape]
  induction label.toList with
  | nil => rfl
  | cons c label ih => rw [List.flatMap_cons, unescape?_escapeChar, ih, Option.map_some]

theorem escape_inj {label label' : String} (h : escape label = escape label') : label = label' := by
  have hsame := congrArg (fun text => unescape? text.toList) h
  simp only [unescape?_escape, Option.some.injEq] at hsame
  exact String.toList_inj.1 hsame

theorem feed_not_mem_escapeChar (c : Char) : '\n' ∉ escapeChar c := by
  rw [escapeChar]
  split
  · decide
  split
  · decide
  split
  · decide
  · next hfeed => exact fun h => hfeed (List.mem_singleton.1 h).symm

theorem feed_not_mem_escape (label : String) : '\n' ∉ (escape label).toList := by
  rw [toList_escape]
  intro h
  obtain ⟨c, -, hc⟩ := List.mem_flatMap.1 h
  exact feed_not_mem_escapeChar c hc

end Drawing

namespace Tree

/-! ## Lines -/

theorem toString_inj {m n : Nat} (h : toString m = toString n) : m = n := by
  have hdigits : Nat.toDigits 10 m = Nat.toDigits 10 n := String.ofList_inj.1 h
  rw [← Nat.ofDigitChars_ten_toDigits (n := m), hdigits, Nat.ofDigitChars_ten_toDigits]

theorem feed_not_mem_toString (n : Nat) : '\n' ∉ (toString n).toList := by
  intro h
  change '\n' ∈ (String.ofList (Nat.toDigits 10 n)).toList at h
  rw [String.toList_ofList] at h
  exact absurd (Nat.isDigit_of_mem_toDigits (by decide) (by decide) h) (by decide)

theorem feed_not_mem_nodeLine (n : Nat) (label : String) : '\n' ∉ (nodeLine n label).toList := by
  simp only [nodeLine, String.toList_append, List.mem_append, not_or]
  exact ⟨⟨⟨⟨by decide, feed_not_mem_toString n⟩, by decide⟩, Drawing.feed_not_mem_escape _⟩, by decide⟩

theorem feed_not_mem_edgeLine (parent n : Nat) : '\n' ∉ (edgeLine parent n).toList := by
  simp only [edgeLine, String.toList_append, List.mem_append, not_or]
  exact ⟨⟨⟨⟨by decide, feed_not_mem_toString parent⟩, by decide⟩, feed_not_mem_toString n⟩, by decide⟩

theorem nodeLine_inj {n : Nat} {label label' : String} (h : nodeLine n label = nodeLine n label') : label = label' := by
  have hchars := congrArg String.toList h
  simp only [nodeLine, String.toList_append, List.append_assoc, List.append_cancel_left_eq] at hchars
  exact Drawing.escape_inj (String.toList_inj.1 (List.append_cancel_right hchars))

theorem edgeLine_inj {parent parent' n : Nat} (h : edgeLine parent n = edgeLine parent' n) : parent = parent' := by
  have hchars := congrArg String.toList h
  simp only [edgeLine, String.toList_append, List.append_assoc, List.append_cancel_left_eq] at hchars
  exact toString_inj (String.toList_inj.1 (List.append_cancel_right hchars))

def entryLines (entry : (Nat × String) × Nat) : List String :=
  [nodeLine entry.2 entry.1.2, edgeLine entry.1.1 entry.2]

mutual

theorem lines_eq (parent n : Nat) :
    ∀ t : Tree, t.lines (some parent) n = ((t.entries parent n).zipIdx n).flatMap entryLines
  | .node label children => by
    rw [lines, entries, List.zipIdx_cons, List.flatMap_cons, childLines_eq]
    rfl

theorem childLines_eq (parent n : Nat) :
    ∀ ts : List Tree, childLines parent n ts = ((childEntries parent n ts).zipIdx n).flatMap entryLines
  | [] => rfl
  | t :: rest => by
    rw [childLines, childEntries, List.zipIdx_append, List.flatMap_append, lines_eq, childLines_eq, length_entries]

end

theorem flatMap_entryLines_inj {n : Nat} {entries entries' : List (Nat × String)}
    (h : (entries.zipIdx n).flatMap entryLines = (entries'.zipIdx n).flatMap entryLines) : entries = entries' := by
  induction entries generalizing n entries' with
  | nil =>
    cases entries' with
    | nil => rfl
    | cons => cases h
  | cons entry entries ih =>
    cases entries' with
    | nil => cases h
    | cons entry' entries' =>
      simp only [List.zipIdx_cons, List.flatMap_cons, entryLines, List.cons_append, List.nil_append,
        List.cons.injEq] at h
      obtain ⟨hlabel, hparent, hlater⟩ := h
      rw [Prod.ext (edgeLine_inj hparent) (nodeLine_inj hlabel), ih hlater]

/-- A tree is known from its lines. -/
theorem lines_inj {t u : Tree} (h : t.lines none 0 = u.lines none 0) : t = u := by
  obtain ⟨label, ts⟩ := t
  obtain ⟨label', us⟩ := u
  rw [lines, lines, List.cons.injEq, childLines_eq, childLines_eq] at h
  obtain ⟨hlabel, hlines⟩ := h
  have hentries : childEntries 0 1 ts = childEntries 0 1 us := flatMap_entryLines_inj hlines
  have hwhole : childEntries 0 1 ts ++ [] = childEntries 0 1 us ++ [] := by rw [hentries]
  have hend : ∀ entry ∈ ([] : List (Nat × String)).head?, entry.1 < 0 := nofun
  obtain ⟨rfl, -⟩ := childEntries_inj Nat.zero_lt_one hend hend ts us hwhole
  rw [nodeLine_inj hlabel]

section Places

variable (label : String) {children : List Tree}

theorem number_root : (node label children).number [] = 0 := by
  have hroot : (node label children).nodes = [] ++ ([], label) :: childNodes [] 0 children := rfl
  exact number_eq hroot

/-- The entries below the root are the nodes below it with the numbers of their parents. -/
theorem childEntries_root : childEntries 0 1 children =
    (childNodes [] 0 children).map fun place => ((node label children).number place.1.dropLast, place.2) := by
  have hbelow : (node label children).nodes = [([], label)] ++ childNodes [] 0 children ++ [] := by
    rw [List.append_nil]
    rfl
  have hentries := childEntries_eq children hbelow
  rwa [number_root] at hentries

theorem ne_nil_of_mem_childNodes {place : List Nat × String} (h : place ∈ childNodes [] 0 children) : place.1 ≠ [] := by
  obtain ⟨j, -, hj⟩ := prefix_of_mem_childNodes children place h
  rintro hnil
  rw [hnil] at hj
  exact absurd hj.length_le (by simp)

end Places

/-- The lines of a tree are those of its nodes in preorder, with the edge that leads to a node right behind it. -/
theorem lines_none (t : Tree) : t.lines none 0 =
    t.nodes.zipIdx.flatMap fun (place, n) =>
      nodeLine n place.2 :: (t.parent? place.1).toList.map fun m => edgeLine m n := by
  obtain ⟨label, children⟩ := t
  have hroot : (node label children).nodes = ([], label) :: childNodes [] 0 children := rfl
  rw [hroot, List.zipIdx_cons, List.flatMap_cons, lines, childLines_eq, childEntries_root label,
    List.zipIdx_map, List.flatMap_map]
  refine congrArg _ (List.flatMap_congr fun ⟨place, n⟩ hplace => ?_)
  have hparent : (node label children).parent? place.1 = some ((node label children).number place.1.dropLast) :=
    if_neg (ne_nil_of_mem_childNodes (List.fst_mem_of_mem_zipIdx hplace))
  simp only [hparent]
  rfl

theorem number_of_getElem? {t : Tree} {n : Nat} {way : List Nat} {label : String}
    (h : t.nodes[n]? = some (way, label)) : t.number way = n := by
  obtain ⟨hn, hget⟩ := List.getElem?_eq_some_iff.1 h
  have hsplit : t.nodes = t.nodes.take n ++ (way, label) :: t.nodes.drop (n + 1) := by
    rw [← hget, List.getElem_cons_drop, List.take_append_drop]
  rw [number_eq hsplit, List.length_take_of_le (Nat.le_of_lt hn)]

/-- Only the root has no parent, and it comes first. -/
theorem parent?_eq_none_iff {t : Tree} {n : Nat} {way : List Nat} {label : String}
    (h : t.nodes[n]? = some (way, label)) : t.parent? way = none ↔ n = 0 := by
  obtain ⟨top, children⟩ := t
  constructor
  · intro hnone
    obtain rfl : way = [] := by
      by_contra hway
      rw [parent?, if_neg hway] at hnone
      cases hnone
    rw [← number_of_getElem? h, number_root]
  · rintro rfl
    cases h
    rfl

/-- A node that has a parent comes behind it. -/
theorem parent?_of_getElem? {t : Tree} {n m : Nat} {way : List Nat} {label : String}
    (h : t.nodes[n]? = some (way, label)) (hm : t.parent? way = some m) :
    m < n ∧ ∃ above, t.nodes[m]? = some (way.dropLast, above) := by
  have hway : way ≠ [] := by
    rintro rfl
    cases hm
  obtain rfl : t.number way.dropLast = m := by
    rw [parent?, if_neg hway] at hm
    exact Option.some.inj hm
  have hlt : t.number way.dropLast < n := by
    obtain ⟨top, children⟩ := t
    cases n with
    | zero =>
      cases h
      exact absurd rfl hway
    | succ n =>
      have hentry : (childEntries 0 1 children)[n]? = some ((node top children).number way.dropLast, label) := by
        rw [childEntries_root top, List.getElem?_map]
        exact congrArg _ h
      exact childEntries_lt Nat.zero_lt_one children _ (List.mk_mem_zipIdx_iff_le_and_getElem?_sub.2
        ⟨Nat.le_add_left 1 n, hentry⟩)
  have hlength : t.number way.dropLast < t.nodes.length :=
    Nat.lt_trans hlt (List.getElem?_eq_some_iff.1 h).1
  refine ⟨hlt, t.nodes[t.number way.dropLast].2, ?_⟩
  have hway' : t.number way.dropLast < (t.nodes.map Prod.fst).length := by rwa [List.length_map]
  have hget : (t.nodes.map Prod.fst)[t.number way.dropLast] = way.dropLast := List.getElem_idxOf hway'
  rw [List.getElem_map] at hget
  rw [List.getElem?_eq_getElem hlength, Option.some.injEq]
  exact Prod.ext hget rfl

end Tree

/-! ## Text -/

theorem append_feed_inj {line line' rest rest' : List Char} (h : '\n' ∉ line) (h' : '\n' ∉ line')
    (hsame : line ++ '\n' :: rest = line' ++ '\n' :: rest') : line = line' ∧ rest = rest' := by
  induction line generalizing line' with
  | nil =>
    cases line' with
    | nil => exact ⟨rfl, (List.cons.inj hsame).2⟩
    | cons c line' => exact absurd ((List.cons.inj hsame).1 ▸ .head _) h'
  | cons c line ih =>
    cases line' with
    | nil => exact absurd ((List.cons.inj hsame).1 ▸ .head _) h
    | cons c' line' =>
      obtain ⟨rfl, hlater⟩ := List.cons.inj hsame
      obtain ⟨rfl, hrest⟩ := ih (fun hmem => h (.tail _ hmem)) (fun hmem => h' (.tail _ hmem)) hlater
      exact ⟨rfl, hrest⟩

/-- Lines are known from the text in which each is ended by a line feed. -/
theorem join_lines_inj {lines lines' : List String} (h : ∀ line ∈ lines, '\n' ∉ line.toList)
    (h' : ∀ line ∈ lines', '\n' ∉ line.toList)
    (hsame : String.join (lines.map (· ++ "\n")) = String.join (lines'.map (· ++ "\n"))) : lines = lines' := by
  have hchars := congrArg String.toList hsame
  rw [String.toList_join, String.toList_join, List.flatMap_map, List.flatMap_map] at hchars
  clear hsame
  induction lines generalizing lines' with
  | nil =>
    cases lines' with
    | nil => rfl
    | cons line' lines' => simp at hchars
  | cons line lines ih =>
    cases lines' with
    | nil => simp at hchars
    | cons line' lines' =>
      simp only [List.flatMap_cons, String.toList_append, List.append_assoc] at hchars
      obtain ⟨hline, hlines⟩ := List.forall_mem_cons.1 h
      obtain ⟨hline', hlines'⟩ := List.forall_mem_cons.1 h'
      obtain ⟨hfirst, hlater⟩ := append_feed_inj hline hline' hchars
      rw [String.toList_inj.1 hfirst, ih hlines hlines' (by simpa using hlater)]

/-- No line of a graph has a line feed inside it. -/
theorem Tree.feed_not_mem_lines (t : Tree) :
    ∀ line ∈ ["digraph AST \x7b", "  node [shape=box];"] ++ t.lines none 0 ++ ["\x7d"], '\n' ∉ line.toList := by
  rw [lines_none]
  intro line hline
  simp only [List.mem_append, List.mem_flatMap, List.mem_cons, List.mem_map, List.not_mem_nil, or_false] at hline
  rcases hline with ((rfl | rfl) | ⟨⟨place, n⟩, -, rfl | ⟨m, -, rfl⟩⟩) | rfl
  · decide
  · decide
  · exact feed_not_mem_nodeLine _ _
  · exact feed_not_mem_edgeLine _ _
  · decide

/-- A tree is known from the text of its graph. -/
theorem Program.tree_eq_of_graph_eq {program other : Program} (h : program.graph = other.graph) :
    program.tree = other.tree := by
  rw [graph_eq, graph_eq] at h
  have hlines := join_lines_inj program.tree.feed_not_mem_lines other.tree.feed_not_mem_lines h
  exact Tree.lines_inj (List.append_cancel_left (List.append_cancel_right hlines))

/-- The text of the graph of a program has a line for each node of its tree, in preorder and with its number, and right
behind it one for the edge from its parent, which has a smaller number; only the root has none. A label is written
without line feeds, and can be read off what is written. So the text tells the tree. -/
theorem Program.graph_tells (program : Program) :
    program.graph = String.join ((["digraph AST \x7b", "  node [shape=box];"] ++
      (program.tree.nodes.zipIdx.flatMap fun (place, n) =>
        Tree.nodeLine n place.2 :: (program.tree.parent? place.1).toList.map fun m => Tree.edgeLine m n) ++
      ["\x7d"]).map (· ++ "\n")) ∧
    (∀ n way label, program.tree.nodes[n]? = some (way, label) → program.tree.number way = n ∧
      (program.tree.parent? way = none ↔ n = 0) ∧
      ∀ m, program.tree.parent? way = some m → m < n ∧ ∃ above, program.tree.nodes[m]? = some (way.dropLast, above)) ∧
    (∀ label : String, '\n' ∉ (Drawing.escape label).toList ∧
      Drawing.unescape? (Drawing.escape label).toList = some label.toList) ∧
    ∀ other : Program, other.graph = program.graph → other.tree = program.tree := by
  refine ⟨?_, ?_, ?_, ?_⟩
  · rw [← Tree.lines_none]
    exact graph_eq program
  · intro n way label h
    exact ⟨Tree.number_of_getElem? h, Tree.parent?_eq_none_iff h, fun _ => Tree.parent?_of_getElem? h⟩
  · exact fun label => ⟨Drawing.feed_not_mem_escape label, Drawing.unescape?_escape label⟩
  · exact fun other => tree_eq_of_graph_eq

/-- A text with a quote, a backslash and a line feed, written inside a block, in two layouts of one program. -/
theorem Program.graph_tells_quoted :
    let program : Program := ⟨[.block ⟨[.write [.literal (.text "a\"b\\\n") ⟨1, 11⟩] ⟨1, 3⟩], ⟨1, 1⟩⟩]⟩
    let moved : Program := ⟨[.block ⟨[.write [.literal (.text "a\"b\\\n") ⟨2, 9⟩] ⟨2, 1⟩], ⟨1, 1⟩⟩]⟩
    let place : List Nat × String := ([0, 0, 0], "\"a\\\"b\\\\\\n\"")
    program.tree.nodes[3]? = some place ∧ program.tree.number place.1 = 3 ∧
      program.tree.parent? place.1 = some 2 ∧ 2 < 3 ∧
      Drawing.unescape? (Drawing.escape place.2).toList = some place.2.toList ∧
      moved.graph = program.graph ∧ moved.tree = program.tree := by
  intro program moved place
  have hplace : program.tree.nodes[3]? = some place := by decide +kernel
  have hparent : program.tree.parent? place.1 = some 2 := by decide +kernel
  have hsame : moved.graph = program.graph := by decide +kernel
  obtain ⟨-, hnodes, hlabels, htree⟩ := graph_tells program
  obtain ⟨hnumber, -, hbefore⟩ := hnodes 3 place.1 place.2 hplace
  exact ⟨hplace, hnumber, hparent, (hbefore 2 hparent).1, (hlabels place.2).2, hsame, htree moved hsame⟩

end Portugol
