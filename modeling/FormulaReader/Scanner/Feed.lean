/-!
Sources of characters. A source answers one request at a time with a character or, at the end of
the input, with `none`. It may go on with characters after that, so a reader that asks again
could tell.
-/

namespace FormulaReader

/-- The answers that a source has still to give, in order. An empty feed goes on answering
`none`. -/
abbrev Feed := List (Option Char)

/-- The characters at the front of a feed that belong to a class. -/
structure Stretch where
  /-- The characters of the class. -/
  taken : List Char
  /-- The first answer that is not of the class. -/
  stop : Option Char
  /-- The answers pulled from the source on the way. -/
  pulled : List (Option Char)
  /-- The answers still to come. -/
  rest : Feed

namespace Stretch

/-- The stretch that has `c`, pulled earlier, before all else. -/
def push (c : Char) (s : Stretch) : Stretch :=
  { s with taken := c :: s.taken }

end Stretch

namespace Feed

/-- The next answer, and the feed after it. -/
def pull : Feed → Option Char × Feed
  | [] => (none, [])
  | answer :: rest => (answer, rest)

/-- Pulls characters up to and including the first answer outside of `inClass`. -/
def stretch (inClass : Char → Bool) : Feed → Stretch
  | [] => ⟨[], none, [none], []⟩
  | none :: rest => ⟨[], none, [none], rest⟩
  | some c :: rest =>
      if inClass c then
        let further := stretch inClass rest
        ⟨c :: further.taken, further.stop, some c :: further.pulled, further.rest⟩
      else
        ⟨[], some c, [some c], rest⟩

theorem stretch_pulled (inClass : Char → Bool) (feed : Feed) :
    (stretch inClass feed).pulled =
      (stretch inClass feed).taken.map some ++ [(stretch inClass feed).stop] := by
  fun_induction stretch inClass feed with
  | case1 => rfl
  | case2 => rfl
  | case3 c rest inside further ih => simpa using ih
  | case4 => rfl

theorem stretch_taken (inClass : Char → Bool) (feed : Feed) :
    ∀ c ∈ (stretch inClass feed).taken, inClass c = true := by
  fun_induction stretch inClass feed with
  | case1 => simp
  | case2 => simp
  | case3 c rest inside further ih => simpa using ⟨inside, ih⟩
  | case4 => simp

theorem stretch_stop (inClass : Char → Bool) (feed : Feed) :
    ∀ c, (stretch inClass feed).stop = some c → inClass c = false := by
  fun_induction stretch inClass feed with
  | case1 => simp
  | case2 => simp
  | case3 c rest inside further ih => exact ih
  | case4 c rest outside => simpa using outside

/-- The answer that stopped the stretch and the answers left are no more than there were. -/
theorem stretch_length_le (inClass : Char → Bool) (feed : Feed) :
    (stretch inClass feed).stop.toList.length + (stretch inClass feed).rest.length ≤
      feed.length := by
  fun_induction stretch inClass feed with
  | case1 => simp
  | case2 => simp
  | case3 c rest inside further ih =>
      exact Nat.le_trans ih (Nat.le_succ _)
  | case4 => simp [Nat.add_comm]

theorem pull_length_le (feed : Feed) :
    feed.pull.1.toList.length + feed.pull.2.length ≤ feed.length := by
  cases feed with
  | nil => simp [pull]
  | cons answer rest =>
      cases answer with
      | none => simp [pull]
      | some c => simp [pull, Nat.add_comm]

end Feed

end FormulaReader
