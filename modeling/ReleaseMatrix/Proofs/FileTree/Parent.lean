import ReleaseMatrix.Proofs.FileTree.Child

/- The parent of a path: its text is in front of that of the path, and its components are those of the
   path but the last one. So the parents of a path come to an end, at a root or at an empty path. -/
namespace ReleaseMatrix

open FileTree ReleaseMatrix.Path

variable {p up level : Path} {cs body rest : List Char} {levels : List Path}

theorem Text.first_piece {sep : Char} {first : List Char} {others : List (List Char)}
    (pieces : Text.splitAll sep cs = first :: others) : cs = first ∨ ∃ back, cs = first ++ sep :: back := by
  induction cs generalizing first others with
  | nil =>
    cases pieces
    exact .inl rfl
  | cons c cs ih =>
    rw [Text.splitAll] at pieces
    split at pieces
    · rename_i cut
      cases pieces
      exact .inr ⟨cs, by rw [cut]; rfl⟩
    · split at pieces
      · rename_i nothing
        exact absurd nothing (Text.splitAll_ne_nil sep cs)
      · rename_i piece more found
        cases pieces
        rcases ih found with rfl | ⟨back, rfl⟩
        · exact .inl rfl
        · exact .inr ⟨back, rfl⟩

namespace FileTree

structure EndsVisibly (cs : List Char) : Prop where
  no_slash : ∀ rest, cs ≠ '/' :: rest
  no_dot : cs ≠ ['.']
  no_dots : ∀ rest, cs ≠ '.' :: '/' :: rest

theorem trimmed_visible (cs : List Char) : EndsVisibly (dropEmptyEnds cs) := by
  fun_induction dropEmptyEnds cs with
  | case1 cs ih => exact ih
  | case2 => exact ⟨by simp, by simp, by simp⟩
  | case3 cs ih => exact ih
  | case4 cs not_slash not_dot not_dots => exact ⟨not_slash, not_dot, not_dots⟩

structure Under (body rest : List Char) : Prop where
  start : rest <+: body
  not_dot : rest ≠ ['.']
  longer : ∃ more hop count, hop ≠ .here ∧
    way body = way rest ++ (List.replicate more .here ++ hop :: List.replicate count .here)

theorem Under.hops (under : Under body rest) : ∃ hops, hops ≠ [] ∧ way body = way rest ++ hops := by
  obtain ⟨more, hop, count, _, longer⟩ := under.longer
  exact ⟨_, by simp, longer⟩

theorem EndsVisibly.last_hop {front last : List Char}
    (visible : EndsVisibly (last.reverse ++ front.reverse)) (some_text : last.reverse ++ front.reverse ≠ [])
    (ending : front = [] ∨ ∃ before, front = before ++ ['/']) :
    ∃ hop, hop ≠ .here ∧ Hop.ofPiece last = some hop := by
  have not_empty : last ≠ [] := by
    rintro rfl
    rcases ending with rfl | ⟨before, rfl⟩
    · exact some_text rfl
    · exact visible.no_slash before.reverse (by simp)
  have not_dot : last ≠ ['.'] := by
    rintro rfl
    rcases ending with rfl | ⟨before, rfl⟩
    · exact visible.no_dot rfl
    · exact visible.no_dots before.reverse (by simp)
  unfold Hop.ofPiece
  rw [if_neg not_empty, if_neg not_dot]
  split
  · exact ⟨.up, Hop.noConfusion, rfl⟩
  · exact ⟨.name _, Hop.noConfusion, rfl⟩

theorem drop_last_piece {front last : List Char} (whole : '/' ∉ last)
    (ending : front = [] ∨ ∃ before, front = before ++ ['/']) :
    (last.reverse ++ front.reverse).dropWhile (· != '/') = front.reverse := by
  have letters : ∀ c ∈ last.reverse, (c != '/') = true := by
    intro c mem
    have other : c ≠ '/' := by
      rintro rfl
      exact whole (List.mem_reverse.mp mem)
    simpa using other
  rw [List.dropWhile_append_of_pos letters]
  rcases ending with rfl | ⟨before, rfl⟩
  · rfl
  · simp

theorem bodyParent_above (above : bodyParent body = some rest) : Under body rest := by
  have trimmed := trimmed_ends body.reverse
  have visible := trimmed_visible body.reverse
  rw [List.reverse_reverse] at trimmed
  unfold bodyParent at above
  generalize dropEmptyEnds body.reverse = kept at trimmed visible above
  split at above
  · simp at above
  · rename_i some_text
    obtain rfl := Option.some.inj above
    obtain ⟨front, last, text, whole, ending⟩ := Text.last_piece '/' kept.reverse
    obtain rfl : kept = last.reverse ++ front.reverse := by
      rw [← List.reverse_append, ← text, List.reverse_reverse]
    obtain ⟨hop, other, named⟩ := visible.last_hop some_text ending
    have inner := trimmed_ends front.reverse
    have inner_visible := trimmed_visible front.reverse
    rw [List.reverse_reverse] at inner
    rw [drop_last_piece whole ending]
    generalize dropEmptyEnds front.reverse = parent at inner inner_visible
    obtain ⟨count, dots⟩ := trimmed.dots
    obtain ⟨more, inner_dots⟩ := inner.dots
    refine ⟨inner.start.trans (.trans ?_ trimmed.start), ?_, more, hop, count, other, ?_⟩
    · rw [text]
      exact List.prefix_append front last
    · intro dot
      exact inner_visible.no_dot (List.reverse_eq_iff.mp dot)
    · rw [dots, text, way_last whole ending, inner_dots, named]
      simp

theorem bodyParent_none (topmost : bodyParent body = none) :
    ∃ count, way body = List.replicate count .here := by
  have trimmed := trimmed_ends body.reverse
  rw [List.reverse_reverse] at trimmed
  unfold bodyParent at topmost
  split at topmost
  · rename_i nothing
    rw [nothing] at trimmed
    exact trimmed.dots
  · cases topmost

end FileTree

namespace Path

def componentOf? : Hop → Option Component
  | .here => none
  | .up => some .parent
  | .name s => some (.name s)

theorem piece_component (piece : List Char) :
    Component.ofPiece piece = (Hop.ofPiece piece).bind componentOf? := by
  by_cases empty : piece = []
  · simp [Component.ofPiece, Hop.ofPiece, empty]
  · by_cases dot : piece = ['.']
    · simp [Component.ofPiece, Hop.ofPiece, dot, componentOf?]
    · by_cases dots : piece = ['.', '.']
      · simp [Component.ofPiece, Hop.ofPiece, dots, componentOf?]
      · simp [Component.ofPiece, Hop.ofPiece, empty, dot, dots, componentOf?]

theorem pieces_components (cs : List Char) :
    (Text.splitAll '/' cs).filterMap Component.ofPiece = (way cs).filterMap componentOf? := by
  rw [way, List.filterMap_filterMap]
  exact List.filterMap_congr fun piece _ => piece_component piece

theorem no_components (count : Nat) :
    (List.replicate count Hop.here).filterMap componentOf? = [] := by
  induction count with
  | zero => rfl
  | succ count ih => rw [List.replicate_succ, List.filterMap_cons_none rfl, ih]

/-- The components of a text behind what `splitLead` takes off, for each of its three cases. -/
theorem components_rooted (body : List Char) :
    componentsOf ('/' :: body) = .root :: (way body).filterMap componentOf? := by
  have pieces : Text.splitAll '/' ('/' :: body) = [] :: Text.splitAll '/' body :=
    Text.splitAll_append '/' [] body
  rw [componentsOf_pieces, pieces, lead, if_pos ⟨rfl, Text.splitAll_ne_nil '/' body⟩,
    List.filterMap_cons_none rfl, pieces_components]
  rfl

theorem components_dotted (cut : rest = [] ∨ ∃ back, rest = '/' :: back) :
    componentsOf ('.' :: rest) = .current :: (way rest).filterMap componentOf? := by
  have first : lead (Text.splitAll '/' ('.' :: rest)) = [.current] := by
    rcases cut with rfl | ⟨back, rfl⟩
    · rfl
    · rw [show Text.splitAll '/' ('.' :: '/' :: back) = ['.'] :: Text.splitAll '/' back from
        Text.splitAll_append '/' ['.'] back]
      rfl
  rw [componentsOf_pieces, first, pieces_components, way_dot rest cut, List.filterMap_cons_none rfl]
  rfl

theorem components_bare (bare : splitLead cs = ([], cs)) :
    componentsOf cs = (way cs).filterMap componentOf? := by
  have nothing : lead (Text.splitAll '/' cs) = [] := by
    unfold splitLead at bare
    split at bare
    · cases bare
    · cases bare
    · cases bare
    · rename_i not_slash not_dot not_dots
      cases pieces : Text.splitAll '/' cs with
      | nil => rfl
      | cons first rest =>
        have no_root : ¬ (first = [] ∧ rest ≠ []) := by
          rintro ⟨rfl, more⟩
          rcases Text.first_piece pieces with rfl | ⟨back, rfl⟩
          · exact more (List.cons.inj pieces).2.symm
          · exact not_slash back rfl
        have no_dot : first ≠ ['.'] := by
          rintro rfl
          rcases Text.first_piece pieces with rfl | ⟨back, rfl⟩
          · exact not_dot rfl
          · exact not_dots back rfl
        rw [lead, if_neg no_root, if_neg no_dot]
  rw [componentsOf_pieces, nothing, pieces_components]
  rfl

theorem under_component (under : Under body rest) : ∃ c, c ≠ .root ∧
    (way body).filterMap componentOf? = (way rest).filterMap componentOf? ++ [c] := by
  obtain ⟨more, hop, count, other, longer⟩ := under.longer
  rw [longer, List.filterMap_append, List.filterMap_append, no_components, List.nil_append]
  cases hop with
  | here => exact absurd rfl other
  | up => exact ⟨.parent, Component.noConfusion, by simp [componentOf?, no_components]⟩
  | name s => exact ⟨.name s, Component.noConfusion, by simp [componentOf?, no_components]⟩

structure Above (cs up : List Char) : Prop where
  start : up <+: cs
  hops : ∃ hops, hops ≠ [] ∧ way cs = way up ++ hops
  component : ∃ c, c ≠ .root ∧ componentsOf cs = componentsOf up ++ [c]

theorem bare_start (bare : splitLead cs = ([], cs)) (under : Under cs rest) :
    splitLead rest = ([], rest) := by
  obtain ⟨back, rfl⟩ := under.start
  rcases splitLead_cases rest with ⟨body, rfl, split⟩ | ⟨body, rfl, cut, split⟩ | split
  · cases bare
  · rcases cut with rfl | ⟨after, rfl⟩
    · exact absurd rfl under.not_dot
    · cases bare
  · exact split

theorem parentText_above (found : parentText cs = some rest) : Above cs rest := by
  rcases splitLead_cases cs with ⟨body, rfl, split⟩ | ⟨body, rfl, cut, split⟩ | split
  · simp only [parentText, split] at found
    cases front : bodyParent body with
    | none => simp [front] at found
    | some parent =>
      have under := bodyParent_above front
      simp only [front, Option.some.injEq] at found
      obtain rfl := found
      refine ⟨(List.prefix_cons_inj '/').mpr under.start, ?_, ?_⟩
      · rw [List.singleton_append, way_slash, way_slash]
        exact under.hops
      · obtain ⟨c, other, longer⟩ := under_component under
        refine ⟨c, other, ?_⟩
        rw [List.singleton_append, components_rooted, components_rooted, longer]
        rfl
  · simp only [parentText, split] at found
    cases front : bodyParent body with
    | none =>
      simp only [front, if_true, Option.some.injEq] at found
      obtain rfl := found
      obtain ⟨count, dots⟩ := bodyParent_none front
      refine ⟨List.nil_prefix, ⟨_, List.cons_ne_nil _ _, way_dot body cut⟩, .current,
        Component.noConfusion, ?_⟩
      rw [components_dotted cut, dots, no_components]
      rfl
    | some parent =>
      have under := bodyParent_above front
      simp only [front, Option.some.injEq] at found
      obtain rfl := found
      have cut_parent : parent = [] ∨ ∃ back, parent = '/' :: back := by
        obtain ⟨back, rfl⟩ := under.start
        exact slash_or_nothing cut
      refine ⟨(List.prefix_cons_inj '.').mpr under.start, ?_, ?_⟩
      · obtain ⟨hops, some_hop, longer⟩ := under.hops
        refine ⟨hops, some_hop, ?_⟩
        rw [List.singleton_append, way_dot _ cut, way_dot _ cut_parent, longer]
        rfl
      · obtain ⟨c, other, longer⟩ := under_component under
        refine ⟨c, other, ?_⟩
        rw [List.singleton_append, components_dotted cut, components_dotted cut_parent, longer]
        rfl
  · simp only [parentText, split] at found
    cases front : bodyParent cs with
    | none => simp [front] at found
    | some parent =>
      have under := bodyParent_above front
      simp only [front, List.nil_append, Option.some.injEq] at found
      obtain rfl := found
      refine ⟨under.start, under.hops, ?_⟩
      rw [components_bare split, components_bare (bare_start split under)]
      exact under_component under

theorem parent_above (above : p.parent = some up) : Above p.text.toList up.text.toList := by
  obtain ⟨text, found, rfl⟩ := Option.map_eq_some_iff.mp above
  rw [String.toList_ofList]
  exact parentText_above found

theorem parent_components (above : p.parent = some up) :
    ∃ c, c ≠ .root ∧ p.components = up.components ++ [c] := (parent_above above).component

theorem parent_none_iff : p.parent = none ↔ p.components = [] ∨ p.components = [.root] := by
  constructor
  · intro topmost
    have no_text := Option.map_eq_none_iff.mp topmost
    unfold components
    generalize p.text.toList = cs at no_text
    rcases splitLead_cases cs with ⟨body, rfl, split⟩ | ⟨body, rfl, cut, split⟩ | split
    · cases front : bodyParent body with
      | none =>
        obtain ⟨count, dots⟩ := bodyParent_none front
        exact .inr (by rw [components_rooted, dots, no_components])
      | some rest => simp [parentText, split, front] at no_text
    · cases front : bodyParent body with
      | none => simp [parentText, split, front] at no_text
      | some rest => simp [parentText, split, front] at no_text
    · cases front : bodyParent cs with
      | none =>
        obtain ⟨count, dots⟩ := bodyParent_none front
        exact .inl (by rw [components_bare split, dots, no_components])
      | some rest => simp [parentText, split, front] at no_text
  · intro few
    cases above : p.parent with
    | none => rfl
    | some up =>
      obtain ⟨c, other, longer⟩ := parent_components above
      rw [longer] at few
      rcases few with nothing | root
      · simp at nothing
      · have last := congrArg List.getLast? root
        rw [List.getLast?_concat] at last
        exact absurd (Option.some.inj last) other

theorem parent_shorter (above : p.parent = some up) : up.text.length < p.text.length := by
  have start := (parent_above above).start
  obtain ⟨c, _, longer⟩ := parent_components above
  rw [← String.length_toList, ← String.length_toList]
  refine lt_of_le_of_ne start.length_le fun same => ?_
  have texts := start.eq_of_length same
  unfold components at longer
  rw [texts] at longer
  simp at longer

theorem fileName_congr {q : Path} (same : p.components = q.components) : p.fileName = q.fileName := by
  rw [fileName, same, fileName]

theorem child_fileName (base : Path) {name : String} (plain : Plain name.toList) :
    (base.join ⟨name⟩).fileName = some name := by
  rw [fileName, components_join base plain, List.getLast?_concat]

theorem parent_of_child (base : Path) {name : String} (plain : Plain name.toList) :
    ∃ dir, (base.join ⟨name⟩).parent = some dir ∧ dir.components = base.components := by
  have components := components_join base plain
  cases above : (base.join ⟨name⟩).parent with
  | none =>
    rcases parent_none_iff.mp above with nothing | root
    · simp [components] at nothing
    · have last := congrArg List.getLast? (components.symm.trans root)
      simp at last
  | some dir =>
    obtain ⟨c, _, longer⟩ := parent_components above
    exact ⟨dir, rfl, (List.append_inj' (longer.symm.trans components) rfl).1⟩

theorem named_parent {name : String} (named : p.fileName = some name) :
    ∃ up, p.parent = some up ∧ p.components = up.components ++ [.name name] := by
  unfold fileName at named
  split at named
  · rename_i s last
    obtain rfl := Option.some.inj named
    cases above : p.parent with
    | none =>
      rcases parent_none_iff.mp above with nothing | root
      · simp [nothing] at last
      · simp [root] at last
    | some up =>
      obtain ⟨c, _, longer⟩ := parent_components above
      rw [longer, List.getLast?_concat] at last
      rw [longer, Option.some.inj last]
      exact ⟨up, rfl, rfl⟩
  · cases named

/-- A path and its successive parents until none is left. -/
inductive Levels : Path → List Path → Prop where
  | topmost (p : Path) (top : p.parent = none) : Levels p [p]
  | inside (p up : Path) (outer : List Path) (above : p.parent = some up) (levels : Levels up outer) :
      Levels p (p :: outer)

theorem ancestorsFuel_levels {fuel : Nat} (enough : p.text.length ≤ fuel) :
    Levels p (ancestorsFuel fuel p) := by
  induction fuel generalizing p with
  | zero =>
    have empty : p.text = "" := String.length_eq_zero_iff.mp (Nat.le_zero.mp enough)
    refine .topmost p (parent_none_iff.mpr (.inl ?_))
    rw [components, empty]
    rfl
  | succ fuel ih =>
    rw [ancestorsFuel]
    cases above : p.parent with
    | none => exact .topmost p above
    | some up =>
      have shorter := parent_shorter above
      exact .inside p up _ above (ih (by omega))

theorem ancestors_levels (p : Path) : Levels p p.ancestors := ancestorsFuel_levels (Nat.le_refl _)

theorem Levels.unique {others : List Path} (first : Levels p levels) (second : Levels p others) :
    levels = others := by
  induction first generalizing others with
  | topmost p top =>
    cases second with
    | topmost _ _ => rfl
    | inside _ _ _ above _ => cases top.symm.trans above
  | inside p up outer above _ ih =>
    cases second with
    | topmost _ top => cases top.symm.trans above
    | inside _ _ _ above' levels =>
      cases above.symm.trans above'
      rw [ih levels]

/-- A path goes on from each of its levels, without starting at the root once more. -/
theorem Levels.beyond (found : Levels p levels) (mem : level ∈ levels) :
    ∃ beyond, .root ∉ beyond ∧ p.components = level.components ++ beyond := by
  induction found with
  | topmost p top =>
    rw [List.mem_singleton.mp mem]
    exact ⟨[], List.not_mem_nil, (List.append_nil _).symm⟩
  | inside p up outer above _ ih =>
    rcases List.mem_cons.mp mem with rfl | further
    · exact ⟨[], List.not_mem_nil, (List.append_nil _).symm⟩
    · obtain ⟨beyond, no_root, front⟩ := ih further
      obtain ⟨c, other, longer⟩ := parent_components above
      refine ⟨beyond ++ [c], ?_, by rw [longer, front, List.append_assoc]⟩
      rw [List.mem_append, List.mem_singleton, not_or]
      exact ⟨no_root, other.symm⟩

end Path
end ReleaseMatrix
