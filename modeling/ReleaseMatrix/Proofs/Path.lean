import Mathlib
import ReleaseMatrix.Path

/- Texts cut at a separator, and paths of a directory and a plain name: what they are cut into, what
   their parent and their components are, and that the name can be read off them. -/
namespace ReleaseMatrix

namespace Text

variable {sep : Char} {cs front back : List Char}

theorem splitAll_ne_nil (sep : Char) (cs : List Char) : splitAll sep cs ≠ [] := by
  cases cs with
  | nil => simp [splitAll]
  | cons c cs =>
    rw [splitAll]
    split
    · simp
    · split <;> simp

theorem splitAll_append (sep : Char) (front back : List Char) :
    splitAll sep (front ++ sep :: back) = splitAll sep front ++ splitAll sep back := by
  induction front with
  | nil => simp [splitAll]
  | cons c front ih =>
    rw [List.cons_append, splitAll, splitAll, ih]
    by_cases cut : c = sep
    · simp [cut]
    · rw [if_neg cut, if_neg cut]
      cases pieces : splitAll sep front with
      | nil => exact absurd pieces (splitAll_ne_nil sep front)
      | cons piece rest => rfl

theorem splitAll_whole (free : sep ∉ cs) : splitAll sep cs = [cs] := by
  induction cs with
  | nil => rfl
  | cons c cs ih =>
    obtain ⟨other, free⟩ := List.ne_and_not_mem_of_not_mem_cons free
    rw [splitAll, if_neg other.symm, ih free]

theorem last_piece (sep : Char) (cs : List Char) :
    ∃ front last, cs = front ++ last ∧ sep ∉ last ∧ (front = [] ∨ ∃ before, front = before ++ [sep]) := by
  induction cs with
  | nil => exact ⟨[], [], rfl, List.not_mem_nil, .inl rfl⟩
  | cons c cs ih =>
    obtain ⟨front, last, rfl, whole, ending⟩ := ih
    rcases ending with rfl | ⟨before, rfl⟩
    · by_cases cut : c = sep
      · exact ⟨[c], last, rfl, whole, .inr ⟨[], by rw [cut]; rfl⟩⟩
      · refine ⟨[], c :: last, rfl, ?_, .inl rfl⟩
        rw [List.mem_cons, not_or]
        exact ⟨Ne.symm cut, whole⟩
    · exact ⟨c :: (before ++ [sep]), last, rfl, whole, .inr ⟨c :: before, rfl⟩⟩

theorem mem_joinWith {c : Char} {between : String} (other : c ∉ between.toList) (items : List String) :
    c ∈ (joinWith between items).toList ↔ ∃ item ∈ items, c ∈ item.toList := by
  fun_induction joinWith between items with
  | case1 => simp
  | case2 item => simp
  | case3 item rest more ih => simp [ih, other]

theorem pieces_free : ∀ piece ∈ splitAll sep cs, sep ∉ piece := by
  induction cs with
  | nil => simp [splitAll]
  | cons c cs ih =>
    rw [splitAll]
    split
    · intro piece mem
      rcases List.mem_cons.mp mem with rfl | later
      · exact List.not_mem_nil
      · exact ih piece later
    · rename_i other
      split
      · rename_i nothing
        exact absurd nothing (splitAll_ne_nil sep cs)
      · rename_i first rest pieces
        rw [pieces] at ih
        intro piece mem
        rcases List.mem_cons.mp mem with rfl | later
        · rw [List.mem_cons, not_or]
          exact ⟨Ne.symm other, ih first List.mem_cons_self⟩
        · exact ih piece (List.mem_cons_of_mem _ later)

end Text

namespace Path

/-- The characters of a name that is a path component of its own. -/
structure Plain (cs : List Char) : Prop where
  whole : '/' ∉ cs
  not_empty : cs ≠ []
  not_dot : cs ≠ ['.']
  not_dots : cs ≠ ['.', '.']

theorem plain_of_fileName {name : String} (own : fileName ⟨name⟩ = some name) :
    Plain name.toList := by
  unfold fileName at own
  split at own
  · rename_i s last
    obtain rfl := Option.some.inj own
    have mem : Component.name s ∈ componentsOf s.toList := List.mem_of_getLast? last
    have in_body : Component.name s ∈ (Text.splitAll '/' s.toList).filterMap Component.ofPiece := by
      simp only [componentsOf] at mem
      split at mem
      · simpa using mem
      · simpa using mem
      · exact mem
    obtain ⟨piece, cut, kind⟩ := List.mem_filterMap.mp in_body
    unfold Component.ofPiece at kind
    split at kind
    · simp at kind
    · rename_i visible
      split at kind
      · simp at kind
      · rename_i not_up
        have same : piece = s.toList := by
          rw [← Component.name.inj (Option.some.inj kind), String.toList_ofList]
        rw [not_or] at visible
        rw [same] at cut visible not_up
        exact ⟨Text.pieces_free _ cut, visible.1, visible.2, not_up⟩
  · simp at own

variable {base : Path} {name : String}

theorem front_relative {front back : List Char} (some_text : front ≠ []) (whole : '/' ∉ front) :
    isAbsoluteText (front ++ back) = false := by
  cases front with
  | nil => exact absurd rfl some_text
  | cons c front =>
    have other : c ≠ '/' := (List.ne_and_not_mem_of_not_mem_cons whole).1.symm
    unfold isAbsoluteText
    split
    · rename_i rest slash
      exact absurd (List.cons.inj slash).1 other
    · rfl

theorem plain_relative (plain : Plain name.toList) : isAbsolute ⟨name⟩ = false := by
  have relative : isAbsoluteText (name.toList ++ []) = false :=
    front_relative plain.not_empty plain.whole
  rwa [List.append_nil] at relative

theorem join_front (base : Path) :
    ∃ front : String, ∀ p : Path, p.isAbsolute = false → base.join p = ⟨front ++ p.text⟩ := by
  unfold join
  by_cases empty : base.text = ""
  · exact ⟨"", fun p relative => by simp [relative, empty]⟩
  · by_cases slashed : endsWithSlash base.text.toList
    · exact ⟨base.text, fun p relative => by simp [relative, empty, slashed]⟩
    · exact ⟨base.text ++ "/", fun p relative => by simp [relative, empty, slashed]⟩

theorem join_injective {p q : Path} (first : p.isAbsolute = false) (second : q.isAbsolute = false)
    (same : base.join p = base.join q) : p = q := by
  obtain ⟨front, joined⟩ := join_front base
  rw [joined p first, joined q second] at same
  have texts := (String.append_right_inj front).mp (congrArg Path.text same)
  cases p
  exact congrArg Path.mk texts

/-- The text of a directory as it stands in front of a relative path: with one slash in between, which
    may be its own. -/
inductive Joined (base : List Char) (name : List Char) : List Char → Prop where
  | alone (empty : base = []) : Joined base name name
  | own_slash (front : List Char) (slashed : base = front ++ ['/']) :
      Joined base name (front ++ '/' :: name)
  | new_slash (some_text : base ≠ []) : Joined base name (base ++ '/' :: name)

theorem join_relative (base : Path) {p : Path} (relative : p.isAbsolute = false) :
    Joined base.text.toList p.text.toList (base.join p).text.toList := by
  unfold join
  rw [relative, if_neg Bool.false_ne_true]
  by_cases empty : base.text = ""
  · rw [if_pos empty]
    exact .alone (by rw [empty]; rfl)
  · rw [if_neg empty]
    by_cases slashed : endsWithSlash base.text.toList
    · rw [if_pos slashed]
      have last : base.text.toList.getLast? = some '/' := by simpa [endsWithSlash] using slashed
      obtain ⟨front, text⟩ := List.getLast?_eq_some_iff.mp last
      have joined : Joined base.text.toList p.text.toList (front ++ '/' :: p.text.toList) :=
        .own_slash front text
      have text_eq : (base.text ++ p.text).toList = front ++ '/' :: p.text.toList := by
        rw [String.toList_append, text, List.append_assoc]
        rfl
      simpa only [text_eq] using joined
    · rw [if_neg slashed]
      have some_text : base.text.toList ≠ [] := by simpa using empty
      have text_eq : (base.text ++ "/" ++ p.text).toList =
          base.text.toList ++ '/' :: p.text.toList := by
        rw [String.toList_append, String.toList_append, List.append_assoc]
        rfl
      have joined : Joined base.text.toList p.text.toList (base.text.toList ++ '/' :: p.text.toList) :=
        .new_slash some_text
      simpa only [text_eq] using joined

theorem join_plain (base : Path) (plain : Plain name.toList) :
    Joined base.text.toList name.toList (base.join ⟨name⟩).text.toList :=
  join_relative base (plain_relative plain)

def lead : List (List Char) → List Component
  | [] => []
  | first :: rest =>
    if first = [] ∧ rest ≠ [] then [.root] else if first = ['.'] then [.current] else []

theorem componentsOf_pieces (cs : List Char) : componentsOf cs =
    lead (Text.splitAll '/' cs) ++ (Text.splitAll '/' cs).filterMap Component.ofPiece := by
  simp only [componentsOf]
  cases Text.splitAll '/' cs with
  | nil => rfl
  | cons first rest =>
    rw [lead]
    split
    · simp_all
    · simp_all
    · rename_i not_root not_current
      have no_slash : ¬ (first = [] ∧ rest ≠ []) := by
        rintro ⟨rfl, more⟩
        obtain ⟨next, others, rfl⟩ := List.exists_cons_of_ne_nil more
        exact not_root next others rfl
      have no_dot : first ≠ ['.'] := by
        rintro rfl
        exact not_current rest rfl
      rw [if_neg no_slash, if_neg no_dot, List.nil_append]

theorem lead_append {pieces : List (List Char)} (some_piece : pieces ≠ []) (first second : List Char) :
    lead (pieces ++ [first]) = lead (pieces ++ [second]) := by
  cases pieces with
  | nil => exact absurd rfl some_piece
  | cons piece rest => simp [lead]

theorem lead_grown {pieces : List (List Char)} (some_piece : pieces ≠ []) (some_text : pieces ≠ [[]])
    (last : List Char) : lead (pieces ++ [last]) = lead pieces := by
  cases pieces with
  | nil => exact absurd rfl some_piece
  | cons piece rest =>
    cases rest with
    | nil =>
      have letters : piece ≠ [] := by rintro rfl; exact some_text rfl
      simp [lead, letters]
    | cons next rest => simp [lead]

theorem components_join (base : Path) (plain : Plain name.toList) :
    (base.join ⟨name⟩).components = base.components ++ [.name name] := by
  have last : [name.toList].filterMap Component.ofPiece = [.name name] := by
    simp [Component.ofPiece, plain.not_empty, plain.not_dot, plain.not_dots]
  have alone : componentsOf name.toList = [.name name] := by
    rw [componentsOf_pieces, Text.splitAll_whole plain.whole, last]
    simp [lead, plain.not_dot]
  have joined := join_plain base plain
  unfold components
  generalize (base.join ⟨name⟩).text.toList = text at joined
  cases joined with
  | alone empty => rw [empty, alone]; rfl
  | own_slash front slashed =>
    have some_piece := Text.splitAll_ne_nil '/' front
    rw [slashed, componentsOf_pieces, componentsOf_pieces, Text.splitAll_append, Text.splitAll_append,
      Text.splitAll_whole plain.whole, List.filterMap_append, last, List.filterMap_append,
      lead_append some_piece name.toList [], List.append_assoc, List.append_assoc]
    rfl
  | new_slash some_text =>
    have some_piece := Text.splitAll_ne_nil '/' base.text.toList
    have longer : Text.splitAll '/' base.text.toList ≠ [[]] := by
      intro single
      cases letters : base.text.toList with
      | nil => exact some_text letters
      | cons c cs =>
        rw [letters, Text.splitAll] at single
        split at single
        · exact Text.splitAll_ne_nil '/' cs (List.cons.inj single).2
        · split at single <;> simp at single
    rw [componentsOf_pieces, componentsOf_pieces, Text.splitAll_append,
      Text.splitAll_whole plain.whole, List.filterMap_append, last, lead_grown some_piece longer,
      List.append_assoc]

def IsChild (dir p : Path) : Prop := ∃ name : String, Plain name.toList ∧ p = dir.join ⟨name⟩

theorem isChild_iff {dir : Path} (relative : isAbsolute ⟨name⟩ = false) :
    IsChild dir (dir.join ⟨name⟩) ↔ Plain name.toList := by
  constructor
  · rintro ⟨other, plain, same⟩
    have names := congrArg Path.text (join_injective relative (plain_relative plain) same)
    obtain rfl : name = other := names
    exact plain
  · intro plain
    exact ⟨name, plain, rfl⟩

section Parent

variable {n : List Char} (plain : Plain n)
include plain

theorem dropEmptyEnds_plain (rest : List Char) :
    dropEmptyEnds (n.reverse ++ rest) = n.reverse ++ rest := by
  have letters : ∀ c ∈ n.reverse, c ≠ '/' := by
    rintro c mem rfl
    exact plain.whole (List.mem_reverse.mp mem)
  cases back : n.reverse with
  | nil => exact absurd (List.reverse_eq_nil_iff.mp back) plain.not_empty
  | cons c cs =>
    rw [back] at letters
    have first : c ≠ '/' := letters c List.mem_cons_self
    cases cs with
    | nil =>
      have not_dot : c ≠ '.' := by
        rintro rfl
        exact plain.not_dot (List.reverse_eq_iff.mp back)
      simp [dropEmptyEnds, first, not_dot]
    | cons d ds =>
      have second : d ≠ '/' := letters d (List.mem_cons_of_mem _ List.mem_cons_self)
      simp [dropEmptyEnds, first, second]

theorem bodyParent_plain : bodyParent n = some [] := by
  have kept := dropEmptyEnds_plain plain []
  have through : n.reverse.dropWhile (· != '/') = [] := by
    rw [List.dropWhile_eq_nil_iff]
    intro c mem
    have other : c ≠ '/' := by
      rintro rfl
      exact plain.whole (List.mem_reverse.mp mem)
    simpa using other
  rw [List.append_nil] at kept
  unfold bodyParent
  rw [kept]
  split
  · rename_i nothing
    exact absurd (List.reverse_eq_nil_iff.mp nothing) plain.not_empty
  · rw [through]
    rfl

theorem bodyParent_under (front : List Char) :
    bodyParent (front ++ '/' :: n) = some (dropEmptyEnds front.reverse).reverse := by
  have backwards : (front ++ '/' :: n).reverse = n.reverse ++ '/' :: front.reverse := by simp
  have through : (n.reverse ++ '/' :: front.reverse).dropWhile (· != '/') = '/' :: front.reverse := by
    rw [List.dropWhile_append_of_pos]
    · simp
    · intro c mem
      have other : c ≠ '/' := by
        rintro rfl
        exact plain.whole (List.mem_reverse.mp mem)
      simpa using other
  unfold bodyParent
  rw [backwards, dropEmptyEnds_plain plain]
  split
  · rename_i nothing
    simp at nothing
  · rw [through, dropEmptyEnds]

end Parent

end Path
end ReleaseMatrix
