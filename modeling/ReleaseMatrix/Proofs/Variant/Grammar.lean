import Mathlib.Computability.Language
import Mathlib.Data.List.Forall2
import ReleaseMatrix.Proofs.Variant.Descriptor

/- What lists make a descriptor, and which error the others get: that of the first bad item, by the first
   of its faults. Pairs and texts are held to one law; a text is cut and trimmed before. -/
namespace ReleaseMatrix

open scoped Computability

def oneOf (allowed : Char → Prop) : Language Char := {word | ∃ c, word = [c] ∧ allowed c}

def AsciiLetter (c : Char) : Prop := 'A' ≤ c ∧ c ≤ 'Z' ∨ 'a' ≤ c ∧ c ≤ 'z'

/-- Names of environment variables: `[A-Za-z_][A-Za-z0-9_]*`. -/
def envNames : Language Char :=
  oneOf (fun c => AsciiLetter c ∨ c = '_') * (oneOf fun c => AsciiLetter c ∨ '0' ≤ c ∧ c ≤ '9' ∨ c = '_')∗

theorem mem_oneOf_star {allowed : Char → Prop} {word : List Char} :
    word ∈ (oneOf allowed)∗ ↔ ∀ c ∈ word, allowed c := by
  rw [Language.mem_kstar]
  constructor
  · rintro ⟨pieces, rfl, legal⟩ c mem
    obtain ⟨piece, listed, mem⟩ := List.mem_flatten.mp mem
    obtain ⟨d, rfl, fine⟩ := legal piece listed
    rwa [List.mem_singleton.mp mem]
  · intro fine
    refine ⟨word.map fun c => [c], ?_, ?_⟩
    · simp [← List.flatMap_def]
    · intro piece listed
      obtain ⟨c, mem, rfl⟩ := List.mem_map.mp listed
      exact ⟨c, rfl, fine c mem⟩

theorem isKeyStart_iff {c : Char} : isKeyStart c = true ↔ AsciiLetter c ∨ c = '_' := by
  simp [isKeyStart, AsciiLetter]

theorem isKeyRest_iff {c : Char} :
    isKeyRest c = true ↔ AsciiLetter c ∨ '0' ≤ c ∧ c ≤ '9' ∨ c = '_' := by
  rw [isKeyRest, Bool.or_eq_true, isKeyStart_iff, or_right_comm, or_assoc, Bool.and_eq_true,
    decide_eq_true_eq, decide_eq_true_eq]

theorem isEnvKey_iff {cs : List Char} : isEnvKey cs = true ↔ cs ∈ envNames := by
  rw [envNames, Language.mem_mul]
  constructor
  · intro valid
    cases cs with
    | nil => cases valid
    | cons c cs =>
      rw [isEnvKey, Bool.and_eq_true, List.all_eq_true] at valid
      exact ⟨[c], ⟨c, rfl, isKeyStart_iff.mp valid.1⟩, cs,
        mem_oneOf_star.mpr fun d mem => isKeyRest_iff.mp (valid.2 d mem), rfl⟩
  · rintro ⟨_, ⟨c, rfl, first⟩, cs, others, rfl⟩
    rw [List.singleton_append, isEnvKey, Bool.and_eq_true, List.all_eq_true]
    exact ⟨isKeyStart_iff.mpr first, fun d mem => isKeyRest_iff.mpr (mem_oneOf_star.mp others d mem)⟩

/-- How an item gives a key and a value, and the error of one that gives none. -/
structure ItemForm (α : Type) where
  gives : α → String → String → Prop
  refuses : α → VariantError → Prop

namespace ItemForm

def pair : ItemForm (String × String) where
  gives p key value := p = (key, value)
  refuses _ _ := False

/-- A text is cut at its first equals sign, and the blanks around both parts are left out. -/
def text : ItemForm String where
  gives item key value := ∃ before after, item.toList = before ++ '=' :: after ∧ '=' ∉ before ∧
    Text.Trims before key.toList ∧ Text.Trims after value.toList
  refuses item e := '=' ∉ item.toList ∧ e = .malformed item

variable {α : Type} {form : ItemForm α} {position : Nat} {item : α} {key value : String}
variable {e : VariantError} {o : EnvOverride}

def Good (form : ItemForm α) (item : α) : Prop :=
  ∃ key value, form.gives item key value ∧ key.toList ∈ envNames ∧ value ≠ ""

inductive Fault (form : ItemForm α) (position : Nat) (item : α) : VariantError → Prop where
  | refused (e : VariantError) (nothing : form.refuses item e) : Fault form position item e
  | emptyKey (value : String) (given : form.gives item "" value) :
      Fault form position item (.emptyKey position)
  | invalidKey (key value : String) (given : form.gives item key value) (some_ : key ≠ "")
      (other : key.toList ∉ envNames) : Fault form position item (.invalidKey key)
  | emptyValue (key : String) (given : form.gives item key "") (named : key.toList ∈ envNames) :
      Fault form position item (.emptyValue key)

structure Checked (form : ItemForm α) (check : Nat → α → Except VariantError EnvOverride) : Prop where
  ok_iff : ∀ position item o, check position item = .ok o ↔ form.gives item o.key o.value
  error_iff : ∀ position item e, check position item = .error e ↔ form.Fault position item e

theorem checked_ok_iff : EnvOverride.checked position key value = .ok o ↔ o.key = key ∧ o.value = value := by
  constructor
  · intro ok
    unfold EnvOverride.checked at ok
    split_ifs at ok
    cases ok
    exact ⟨rfl, rfl⟩
  · rintro ⟨rfl, rfl⟩
    exact o.checked_own position

theorem checked_error_iff :
    EnvOverride.checked position key value = .error e ↔ pair.Fault position (key, value) e := by
  constructor
  · intro failed
    unfold EnvOverride.checked at failed
    split_ifs at failed with empty valid hollow
    · cases failed
      subst empty
      exact .emptyKey value rfl
    · cases failed
      subst hollow
      exact .emptyValue key rfl (isEnvKey_iff.mp valid)
    · cases failed
      exact .invalidKey key value rfl empty fun named => valid (isEnvKey_iff.mpr named)
  · intro fault
    cases fault with
    | refused e nothing => exact nothing.elim
    | emptyKey value given =>
      cases given
      simp [EnvOverride.checked]
    | invalidKey key value given some_ other =>
      cases given
      rw [← isEnvKey_iff] at other
      simp [EnvOverride.checked, some_, other]
    | emptyValue key given named =>
      cases given
      have some_ : key ≠ "" := by
        rintro rfl
        cases isEnvKey_iff.mpr named
      rw [← isEnvKey_iff] at named
      simp [EnvOverride.checked, some_, named]

theorem pair_checked : pair.Checked fun position p => EnvOverride.checked position p.1 p.2 where
  ok_iff position p o := by
    rw [checked_ok_iff]
    exact ⟨fun ⟨key, value⟩ => Prod.ext key.symm value.symm, fun given => given ▸ ⟨rfl, rfl⟩⟩
  error_iff position p e := checked_error_iff

theorem text_gives_iff {item : String} {before after : List Char}
    (cut : Text.cut? '=' item.toList = some (before, after)) :
    text.gives item key value ↔
      pair.gives (String.ofList (Text.trimList before), String.ofList (Text.trimList after)) key value := by
  obtain ⟨whole, free⟩ := Text.cut?_some_iff.mp cut
  constructor
  · rintro ⟨before', after', whole', free', left, right⟩
    have same := cut.symm.trans (Text.cut?_some_iff.mpr ⟨whole', free'⟩)
    simp only [Option.some.injEq, Prod.mk.injEq] at same
    obtain ⟨rfl, rfl⟩ := same
    rw [Text.trims_iff.mp left, Text.trims_iff.mp right, String.ofList_toList, String.ofList_toList]
    rfl
  · rintro ⟨rfl, rfl⟩
    refine ⟨before, after, whole, free, ?_, ?_⟩
    · rw [String.toList_ofList]
      exact Text.trimList_trims before
    · rw [String.toList_ofList]
      exact Text.trimList_trims after

theorem text_given {item : String} (given : text.gives item key value) : '=' ∈ item.toList := by
  obtain ⟨before, after, whole, _⟩ := given
  rw [whole]
  exact List.mem_append_right before List.mem_cons_self

theorem Fault.transfer {β : Type} {other : ItemForm β} {item' : β} (fault : form.Fault position item e)
    (gives : ∀ key value, form.gives item key value → other.gives item' key value)
    (refuses : ∀ e, form.refuses item e → other.refuses item' e) : other.Fault position item' e := by
  cases fault with
  | refused e nothing => exact .refused e (refuses e nothing)
  | emptyKey value given => exact .emptyKey value (gives _ _ given)
  | invalidKey key value given some_ unnamed => exact .invalidKey key value (gives _ _ given) some_ unnamed
  | emptyValue key given named => exact .emptyValue key (gives _ _ given) named

theorem text_checked : text.Checked EnvOverride.parseAt where
  ok_iff position item o := by
    unfold EnvOverride.parseAt
    cases cut : Text.cut? '=' item.toList with
    | none =>
      simp only [reduceCtorEq, false_iff]
      exact fun given => Text.cut?_none_iff.mp cut (text_given given)
    | some parts => exact (pair_checked.ok_iff position _ o).trans (text_gives_iff cut).symm
  error_iff position item e := by
    unfold EnvOverride.parseAt
    cases cut : Text.cut? '=' item.toList with
    | none =>
      have free := Text.cut?_none_iff.mp cut
      rw [Except.error.injEq]
      constructor
      · rintro rfl
        exact .refused _ ⟨free, rfl⟩
      · intro fault
        cases fault with
        | refused e nothing => exact nothing.2.symm
        | emptyKey value given => exact absurd (text_given given) free
        | invalidKey key value given => exact absurd (text_given given) free
        | emptyValue key given => exact absurd (text_given given) free
    | some parts =>
      have present : '=' ∈ item.toList := by
        rw [(Text.cut?_some_iff.mp cut).1]
        exact List.mem_append_right _ List.mem_cons_self
      refine checked_error_iff.trans ⟨fun fault => ?_, fun fault => ?_⟩
      · exact fault.transfer (fun _ _ => (text_gives_iff cut).mpr) fun _ nothing => nothing.elim
      · exact fault.transfer (fun _ _ => (text_gives_iff cut).mp) fun _ nothing => nothing.1 present

variable {check : Nat → α → Except VariantError EnvOverride} {items : List α} {os : List EnvOverride}

theorem Checked.good_iff (checked : form.Checked check) (position : Nat) (item : α) :
    form.Good item ↔ ∃ o, check position item = .ok o := by
  constructor
  · rintro ⟨key, value, given, named, some_⟩
    exact ⟨⟨key, value, isEnvKey_iff.mpr named, some_⟩, (checked.ok_iff position item _).mpr given⟩
  · rintro ⟨o, ok⟩
    exact ⟨o.key, o.value, (checked.ok_iff position item o).mp ok, isEnvKey_iff.mp o.key_valid,
      o.value_nonempty⟩

theorem Checked.all_ok_iff (checked : form.Checked check) :
    checkFrom check position items = .ok os ↔
      List.Forall₂ (fun item o => form.gives item o.key o.value) items os := by
  induction items generalizing position os with
  | nil => simp [checkFrom, eq_comm]
  | cons item rest ih =>
    constructor
    · intro ok
      unfold checkFrom at ok
      split at ok
      · cases ok
      · rename_i o first
        split at ok
        · cases ok
        · rename_i others later
          cases ok
          exact .cons ((checked.ok_iff position item o).mp first) (ih.mp later)
    · rintro (_ | ⟨first, later⟩)
      simp only [checkFrom, (checked.ok_iff position item _).mpr first, ih.mpr later]

theorem Checked.all_good_iff (checked : form.Checked check) :
    (∃ os, checkFrom check position items = .ok os) ↔ ∀ item ∈ items, form.Good item := by
  induction items generalizing position with
  | nil => simp [checkFrom]
  | cons item rest ih =>
    rw [List.forall_mem_cons, checked.good_iff position, ← ih, checkFrom]
    cases check position item with
    | error e => simp
    | ok o => cases checkFrom check (position + 1) rest <;> simp

/-- The first item with a fault, in a list whose first item has that position. -/
def Blamed (form : ItemForm α) (position : Nat) (items : List α) (e : VariantError) : Prop :=
  ∃ before item after, items = before ++ item :: after ∧ (∀ earlier ∈ before, form.Good earlier) ∧
    form.Fault (position + before.length) item e

theorem Checked.blamed_cons (checked : form.Checked check) {rest : List α} :
    form.Blamed position (item :: rest) e ↔ check position item = .error e ∨
      form.Good item ∧ form.Blamed (position + 1) rest e := by
  rw [checked.error_iff]
  constructor
  · rintro ⟨before, blamed, after, split, good, fault⟩
    cases before with
    | nil =>
      obtain ⟨rfl, _⟩ := List.cons.inj split
      exact .inl fault
    | cons first before =>
      obtain ⟨rfl, rfl⟩ := List.cons.inj split
      obtain ⟨here, good⟩ := List.forall_mem_cons.mp good
      refine .inr ⟨here, before, blamed, after, rfl, good, ?_⟩
      rwa [List.length_cons, Nat.add_comm before.length, ← Nat.add_assoc] at fault
  · rintro (fault | ⟨here, before, blamed, after, rfl, good, fault⟩)
    · exact ⟨[], item, rest, rfl, by simp, fault⟩
    · refine ⟨item :: before, blamed, after, rfl, List.forall_mem_cons.mpr ⟨here, good⟩, ?_⟩
      rwa [List.length_cons, Nat.add_comm before.length, ← Nat.add_assoc]

theorem Checked.all_error_iff (checked : form.Checked check) :
    checkFrom check position items = .error e ↔ form.Blamed position items e := by
  induction items generalizing position with
  | nil => simp [checkFrom, Blamed]
  | cons item rest ih =>
    rw [checked.blamed_cons, checked.good_iff position, ← ih, checkFrom]
    cases check position item with
    | error e' => simp
    | ok o => cases checkFrom check (position + 1) rest <;> simp

end ItemForm

namespace VariantDescriptor

variable {α : Type}

/-- What a reader of lists in a form accepts, what comes of it, and which error the rest gets. -/
structure Reads (form : ItemForm α) (read : List α → Except VariantError VariantDescriptor) : Prop where
  accepts_iff : ∀ items, (∃ d, read items = .ok d) ↔ items ≠ [] ∧ ∀ item ∈ items, form.Good item
  result_iff : ∀ items d, read items = .ok d ↔
    List.Forall₂ (fun item o => form.gives item o.key o.value) items d.overrides
  empty : read [] = .error .emptyDescriptor
  blames_iff : ∀ items e, items ≠ [] → (read items = .error e ↔ form.Blamed 0 items e)

def readWith (check : Nat → α → Except VariantError EnvOverride) (items : List α) :
    Except VariantError VariantDescriptor :=
  match checkFrom check 0 items with
  | .error e => .error e
  | .ok os => ofOverrides os

variable {form : ItemForm α} {check : Nat → α → Except VariantError EnvOverride} {items : List α}
variable {d : VariantDescriptor} {e : VariantError}

theorem readWith_ok_iff : readWith check items = .ok d ↔ checkFrom check 0 items = .ok d.overrides := by
  constructor
  · intro read
    unfold readWith ofOverrides at read
    split at read
    · cases read
    · rename_i os ok
      split_ifs at read
      cases read
      exact ok
  · intro ok
    simp only [readWith, ok, ofOverrides, d.nonempty, dite_false]

theorem readWith_error_iff (checked : form.Checked check) (some_ : items ≠ []) :
    readWith check items = .error e ↔ checkFrom check 0 items = .error e := by
  unfold readWith ofOverrides
  cases all : checkFrom check 0 items with
  | error e' => simp only [Except.error.injEq]
  | ok os =>
    have listed : os ≠ [] := by
      rintro rfl
      exact some_ (List.forall₂_nil_right_iff.mp (checked.all_ok_iff.mp all))
    simp only [listed, dite_false, reduceCtorEq]

theorem reads_of_checked (checked : form.Checked check) : Reads form (readWith check) where
  accepts_iff items := by
    constructor
    · rintro ⟨d, read⟩
      have ok := readWith_ok_iff.mp read
      refine ⟨?_, checked.all_good_iff.mp ⟨_, ok⟩⟩
      rintro rfl
      exact d.nonempty (Except.ok.inj ok).symm
    · rintro ⟨some_, good⟩
      cases read : readWith check items with
      | ok d => exact ⟨d, rfl⟩
      | error e =>
        obtain ⟨os, ok⟩ := checked.all_good_iff.mpr good
        cases ok.symm.trans ((readWith_error_iff checked some_).mp read)
  result_iff items d := readWith_ok_iff.trans checked.all_ok_iff
  empty := rfl
  blames_iff items e some_ := (readWith_error_iff checked some_).trans checked.all_error_iff

theorem parse_reads : Reads .text parse := reads_of_checked ItemForm.text_checked

theorem new_reads : Reads .pair new := reads_of_checked ItemForm.pair_checked

/-- Lists of texts and lists of pairs are read alike, but for how an item gives a key and a value. -/
theorem descriptors_read : Reads .text parse ∧ Reads .pair new := ⟨parse_reads, new_reads⟩

example : parse ["GOOS=linux", "\n OS = a=b", "É=", "=x"] = .error (.invalidKey "É") := rfl

example : new [("GOOS", "linux"), ("OS\n", "")] = .error (.invalidKey "OS\n") := rfl

end VariantDescriptor
end ReleaseMatrix
