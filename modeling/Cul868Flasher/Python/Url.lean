import Mathlib.Data.List.Basic

/-!
# The path of a URL

`urlsplit(url).path`. A `ValueError` comes from the part between `//` and the
path, so a target that names no server never raises.
-/

namespace Python

/-- The characters `urlsplit` drops wherever they stand. -/
def isUnsafeUrlChar (c : Char) : Bool := c = '\t' || c = '\r' || c = '\n'

def isSchemeChar (c : Char) : Bool := c.isAlphanum || c = '+' || c = '-' || c = '.'

def isNetlocEnd (c : Char) : Bool := c = '/' || c = '?' || c = '#'

/-- `lstrip` of control characters and spaces, then the unsafe characters. -/
def cleanUrl (url : List Char) : List Char :=
  (url.dropWhile fun c => decide (c.toNat ≤ 32)).filter fun c => !isUnsafeUrlChar c

def dropScheme (url : List Char) : List Char :=
  let scheme := url.takeWhile (· ≠ ':')
  match url.dropWhile (· ≠ ':') with
  | _ :: rest => if scheme.head?.any Char.isAlpha && scheme.all isSchemeChar then rest else url
  | [] => url

/-- Everything before the query and the fragment. -/
def cutQuery (url : List Char) : List Char := url.takeWhile fun c => c ≠ '?' && c ≠ '#'

/-- `netlocAllowed` stands for the checks of a bracketed host and of the
characters of a host. -/
def splitNetloc (netlocAllowed : List Char → Bool) (url : List Char) : Option (List Char) :=
  let netloc := url.takeWhile (!isNetlocEnd ·)
  if netloc.contains '[' ≠ netloc.contains ']' then none
  else if !netlocAllowed netloc then none
  else some (cutQuery (url.dropWhile (!isNetlocEnd ·)))

/-- `urlsplit(url).path`; `none` is its `ValueError`. -/
def urlPath (netlocAllowed : List Char → Bool) (url : List Char) : Option (List Char) :=
  match dropScheme (cleanUrl url) with
  | '/' :: '/' :: rest => splitNetloc netlocAllowed rest
  | url => some (cutQuery url)

theorem dropScheme_slash (cs : List Char) : dropScheme ('/' :: cs) = '/' :: cs := by
  have hscheme : ('/' :: cs).takeWhile (· ≠ ':') = '/' :: cs.takeWhile (· ≠ ':') := rfl
  unfold dropScheme
  rw [hscheme]
  split
  · rfl
  · rfl

/-- A target in origin form has a path, whatever the checks of a host are. -/
theorem urlPath_origin (netlocAllowed : List Char → Bool) {cs : List Char}
    (hplain : ∀ c ∈ cs, isUnsafeUrlChar c = false) (hhead : cs.head? ≠ some '/') :
    urlPath netlocAllowed ('/' :: cs) = some (cutQuery ('/' :: cs)) := by
  have hclean : cleanUrl ('/' :: cs) = '/' :: cs := by
    change '/' :: cs.filter (fun c => !isUnsafeUrlChar c) = '/' :: cs
    rw [List.filter_eq_self.mpr fun c hc => by simp [hplain c hc]]
  rw [urlPath, hclean, dropScheme_slash]
  split
  · rename_i rest heq
    rw [List.cons.inj heq |>.2] at hhead
    exact absurd rfl hhead
  · rfl

end Python
