/-!
# Styled text

Texts on a page are written with styles: a tag such as `[red]` opens one and
`[/red]` closes it.  A tag does not show, unless a backslash in front of it says
that it is meant as text.  Brackets that hold no tag show as they are, but for
one backslash in front of them.
-/

namespace FormRules.Cli

/-- Text in a style. -/
def styled (style text : String) : String := "[" ++ style ++ "]" ++ text ++ "[/" ++ style ++ "]"

def beginsTag (c : Char) : Bool :=
  ('a' ≤ c && c ≤ 'z') || c == '#' || c == '/' || c == '@'

/-- Whether a character inside a tag is not a bracket. -/
def isTagChar (c : Char) : Bool := c != '[' && c != ']'

/-- The tag a text begins with, without its brackets, and what follows it. -/
def tag? (cs : List Char) : Option (List Char × List Char) :=
  match cs with
  | '[' :: c :: rest =>
    match beginsTag c, rest.dropWhile isTagChar with
    | true, ']' :: after => some (c :: rest.takeWhile isTagChar, after)
    | _, _ => none
  | _ => none

theorem length_lt_of_tag? {cs tag after : List Char} (h : tag? cs = some (tag, after)) :
    after.length < cs.length := by
  unfold tag? at h
  split at h
  next c rest =>
    split at h
    next hrest =>
      obtain ⟨-, rfl⟩ := by simpa using h
      have := (List.dropWhile_suffix (l := rest) isTagChar).length_le
      simp [hrest] at this
      simp
      omega
    · simp at h
  · simp at h

/-- What is seen of `count` backslashes and the text that follows them.  In front
of a tag two backslashes show as one, and an odd one makes the tag text. -/
def withoutStylesFrom (count : Nat) (cs : List Char) : List Char :=
  match cs with
  | [] => List.replicate count '\\'
  | '\\' :: rest => withoutStylesFrom (count + 1) rest
  | c :: rest =>
    match h : tag? (c :: rest) with
    | some (tag, after) =>
      have := length_lt_of_tag? h
      List.replicate (count / 2) '\\' ++ (if count % 2 = 1 then '[' :: tag ++ [']'] else []) ++
        withoutStylesFrom 0 after
    | none =>
      List.replicate (if c = '[' then count - 1 else count) '\\' ++ c :: withoutStylesFrom 0 rest
termination_by cs.length
decreasing_by
  · simp
  · exact this
  · simp

/-- What is seen of a text with styles. -/
def withoutStyles (cs : List Char) : List Char := withoutStylesFrom 0 cs

/-- Writes `count` backslashes and the text that follows them so that its tags
show as text.  A backslash alone at the end is doubled, lest it act on a tag
that is written behind it. -/
def escapeFrom (count : Nat) : List Char → List Char
  | [] => List.replicate (if count = 1 then 2 else count) '\\'
  | c :: rest =>
    if c = '\\' then escapeFrom (count + 1) rest
    else
      let shown := if (tag? (c :: rest)).isSome then 2 * count + 1 else count
      List.replicate shown '\\' ++ c :: escapeFrom 0 rest

/-- A text as part of a text with styles. -/
def escaped (s : String) : String := String.ofList (escapeFrom 0 s.toList)

end FormRules.Cli
