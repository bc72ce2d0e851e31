import Mathlib.Algebra.GroupWithZero.Nat
import Mathlib.Data.List.Basic

/-!
# POSIX paths of `pathlib`

A path is its root and its components. Building one from text drops empty and
`.` components, so two spellings of a path can be equal; `..` is kept.
-/

namespace Python

structure Path where
  root : String
  tail : List String
  deriving DecidableEq

namespace Path

def rootOf : List Char → List Char
  | '/' :: '/' :: '/' :: _ => ['/']
  | '/' :: '/' :: _ => ['/', '/']
  | '/' :: _ => ['/']
  | _ => []

/-- `Path(text)`. Two leading slashes, and only two, are a root of their own. -/
def ofString (text : String) : Path where
  root := String.ofList (rootOf text.toList)
  tail := ((text.toList.splitOn '/').filter (fun c => c ≠ [] ∧ c ≠ ['.'])).map String.ofList

/-- `str(path)`. -/
protected def toString (p : Path) : String :=
  if p.root = "" ∧ p.tail = [] then "." else p.root ++ String.intercalate "/" p.tail

instance : ToString Path := ⟨Path.toString⟩

def isAbsolute (p : Path) : Bool := p.root ≠ ""

def parts (p : Path) : List String := if p.root = "" then p.tail else p.root :: p.tail

def parent (p : Path) : Path := { p with tail := p.tail.dropLast }

def name (p : Path) : String := p.tail.getLast?.getD ""

/-- `path / name` for a name that is one component. -/
def child (p : Path) (name : String) : Path := { p with tail := p.tail ++ [name] }

/-- `path.suffix`: from the last dot of the name, unless it is the first or last character. -/
def suffix (p : Path) : String :=
  let cs := p.name.toList
  let i := cs.length - 1 - cs.reverse.idxOf '.'
  if '.' ∈ cs ∧ 0 < i ∧ i + 1 < cs.length then String.ofList (cs.drop i) else ""

@[simp] theorem parent_child (p : Path) (name : String) : (p.child name).parent = p := by
  simp [child, parent]

@[simp] theorem name_child (p : Path) (name : String) : (p.child name).name = name := by
  simp [child, Path.name]

example : toString (ofString "//dev/./serial//by-id/") = "//dev/serial/by-id" := by decide +kernel

/-! ## Paths and their texts -/

/-- What a component of a path can be. -/
structure IsComponent (name : List Char) : Prop where
  ne_nil : name ≠ []
  ne_dot : name ≠ ['.']
  no_slash : '/' ∉ name

theorem not_mem_of_mem_splitOn {sep : Char} {cs piece : List Char} (h : piece ∈ cs.splitOn sep) :
    sep ∉ piece := by
  induction cs generalizing piece with
  | nil =>
    rw [List.splitOn_nil, List.mem_singleton] at h
    simp [h]
  | cons c cs ih =>
    rw [List.splitOn_cons_eq_if_modifyHead] at h
    split_ifs at h with hc
    · rcases List.mem_cons.mp h with rfl | h
      · simp
      · exact ih h
    · obtain ⟨first, rest, hsplit⟩ := List.exists_cons_of_ne_nil (List.splitOn_ne_nil sep cs)
      rw [hsplit, List.modifyHead_cons] at h
      rcases List.mem_cons.mp h with rfl | h
      · have hfirst : sep ∉ first := ih (by rw [hsplit]; exact List.mem_cons_self)
        have hne : sep ≠ c := by
          rintro rfl
          exact hc (by simp)
        simp [hne, hfirst]
      · exact ih (by rw [hsplit]; exact List.mem_cons_of_mem _ h)

theorem exists_mem_splitOn {sep x : Char} (hx : x ≠ sep) (cs : List Char) :
    (∃ piece ∈ cs.splitOn sep, x ∈ piece) ↔ x ∈ cs := by
  induction cs with
  | nil => simp
  | cons c cs ih =>
    rw [List.splitOn_cons_eq_if_modifyHead, List.mem_cons, ← ih]
    split_ifs with hc
    · have hne : x ≠ c := by
        rintro rfl
        exact hx (by simpa using hc)
      simp [hne]
    · obtain ⟨first, rest, hsplit⟩ := List.exists_cons_of_ne_nil (List.splitOn_ne_nil sep cs)
      simp [hsplit, or_assoc]

/-- The characters of a text are those of its components, but for slashes and dots. -/
theorem mem_tail {text : String} {x : Char} (hslash : x ≠ '/') (hdot : x ≠ '.') :
    (∃ name ∈ (ofString text).tail, x ∈ name.toList) ↔ x ∈ text.toList := by
  rw [← exists_mem_splitOn hslash]
  constructor
  · rintro ⟨name, hname, hx⟩
    obtain ⟨piece, hpiece, rfl⟩ := List.mem_map.mp hname
    exact ⟨piece, (List.mem_filter.mp hpiece).1, by rwa [String.toList_ofList] at hx⟩
  · rintro ⟨piece, hpiece, hx⟩
    refine ⟨String.ofList piece, List.mem_map.mpr ⟨piece, List.mem_filter.mpr ⟨hpiece, ?_⟩, rfl⟩,
      by rwa [String.toList_ofList]⟩
    have hne : piece ≠ [] := List.ne_nil_of_mem hx
    have hother : piece ≠ ['.'] := by
      rintro rfl
      exact hdot (List.mem_singleton.mp hx)
    simp [hne, hother]

theorem isComponent_tail (text : String) : ∀ name ∈ (ofString text).tail,
    IsComponent name.toList := by
  intro name hname
  obtain ⟨piece, hpiece, rfl⟩ := List.mem_map.mp hname
  obtain ⟨hmem, hkept⟩ := List.mem_filter.mp hpiece
  rw [decide_eq_true_eq] at hkept
  rw [String.toList_ofList]
  exact ⟨hkept.1, hkept.2, not_mem_of_mem_splitOn hmem⟩

theorem toList_toString {p : Path} (h : p.root = "/") :
    (toString p).toList = '/' :: ['/'].intercalate (p.tail.map String.toList) := by
  change (Path.toString p).toList = _
  rw [Path.toString, if_neg (by simp [h]), h, String.toList_append, String.toList_intercalate]
  rfl

theorem rootOf_slash {cs : List Char} (h : ∀ rest, cs ≠ '/' :: rest) :
    rootOf ('/' :: cs) = ['/'] := by
  rw [rootOf]
  · rintro _ rfl
    exact h _ rfl
  · rintro _ rfl
    exact h _ rfl

/-- The text of an absolute path is read back as that path. -/
theorem ofString_toString {p : Path} (hroot : p.root = "/")
    (htail : ∀ name ∈ p.tail, IsComponent name.toList) : ofString (toString p) = p := by
  have htext := toList_toString hroot
  obtain ⟨root, tail⟩ := p
  dsimp only at hroot htail htext
  subst hroot
  cases tail with
  | nil =>
    rw [ofString, htext]
    rfl
  | cons name tail =>
    have hsplit : (['/'].intercalate ((name :: tail).map String.toList)).splitOn '/' =
        (name :: tail).map String.toList := by
      refine List.splitOn_intercalate '/' ?_ (by simp)
      intro l hl
      obtain ⟨n, hn, rfl⟩ := List.mem_map.mp hl
      exact (htail n hn).no_slash
    have hkeep : ((name :: tail).map String.toList).filter (fun c => c ≠ [] ∧ c ≠ ['.']) =
        (name :: tail).map String.toList := by
      refine List.filter_eq_self.mpr fun l hl => ?_
      obtain ⟨n, hn, rfl⟩ := List.mem_map.mp hl
      simp [(htail n hn).ne_nil, (htail n hn).ne_dot]
    have hhead : ∀ rest, ['/'].intercalate ((name :: tail).map String.toList) ≠ '/' :: rest := by
      intro rest heq
      obtain ⟨c, cs, hcs⟩ := List.exists_cons_of_ne_nil (htail name List.mem_cons_self).ne_nil
      have hc : c = '/' := by
        cases tail with
        | nil =>
          rw [List.map_singleton, List.intercalate_singleton, hcs] at heq
          exact (List.cons.inj heq).1
        | cons next tail =>
          rw [List.map_cons, List.map_cons, List.intercalate_cons_cons, hcs] at heq
          exact (List.cons.inj heq).1
      have hslash := (htail name List.mem_cons_self).no_slash
      rw [hcs, hc] at hslash
      exact hslash List.mem_cons_self
    rw [ofString, htext, rootOf_slash hhead, List.splitOn_cons_eq_if_modifyHead, if_pos (by simp),
      hsplit, List.filter_cons_of_neg (by simp), hkeep]
    simp

theorem length_intercalate (sep : Char) {ls : List (List Char)} (h : ls ≠ []) :
    ([sep].intercalate ls).length + 1 = (ls.map fun l => l.length + 1).sum := by
  induction ls with
  | nil => exact absurd rfl h
  | cons l ls ih =>
    cases ls with
    | nil => simp
    | cons next ls =>
      have hrest := ih (by simp)
      rw [List.intercalate_cons_cons, List.map_cons, List.sum_cons, ← hrest, List.length_append,
        List.length_append, List.length_singleton]
      omega

theorem sum_filter_le (p : List Char → Bool) (ls : List (List Char)) :
    ((ls.filter p).map fun l => l.length + 1).sum ≤ (ls.map fun l => l.length + 1).sum := by
  induction ls with
  | nil => simp
  | cons l ls ih =>
    cases h : p l with
    | true =>
      rw [List.filter_cons_of_pos h]
      simp only [List.map_cons, List.sum_cons]
      omega
    | false =>
      rw [List.filter_cons_of_neg (by simp [h])]
      simp only [List.map_cons, List.sum_cons]
      omega

theorem exists_of_root {text : String} (h : (ofString text).root = "/") :
    ∃ cs, text.toList = '/' :: cs := by
  have hroot : rootOf text.toList = ['/'] := by
    have hlist := congrArg String.toList h
    simpa [ofString] using hlist
  cases hcs : text.toList with
  | nil => simp [hcs, rootOf] at hroot
  | cons c cs =>
    by_cases hc : c = '/'
    · exact ⟨cs, by rw [hc]⟩
    · rw [hcs, rootOf] at hroot
      · cases hroot
      all_goals
        rintro _ heq
        exact hc (List.cons.inj heq).1

/-- Normalizing an absolute path does not lengthen it. -/
theorem length_toString_le {text : String} (h : (ofString text).root = "/") :
    (toString (ofString text)).length ≤ text.length := by
  obtain ⟨cs, hcs⟩ := exists_of_root h
  have hpieces := length_intercalate '/' (List.splitOn_ne_nil '/' cs)
  rw [List.intercalate_splitOn] at hpieces
  have htail : (ofString text).tail.map String.toList =
      (cs.splitOn '/').filter (fun c => c ≠ [] ∧ c ≠ ['.']) := by
    simp [ofString, hcs, List.splitOn_cons_eq_if_modifyHead]
  rw [← String.length_toList, ← String.length_toList, toList_toString h, htail, hcs,
    List.length_cons, List.length_cons]
  by_cases hnil : (cs.splitOn '/').filter (fun c => c ≠ [] ∧ c ≠ ['.']) = []
  · rw [hnil]
    simp
  · have hkept := length_intercalate '/' hnil
    have hle := sum_filter_le (fun c => c ≠ [] ∧ c ≠ ['.']) (cs.splitOn '/')
    omega

end Path
end Python
