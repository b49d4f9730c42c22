import FormulaReader.Chain

/-!
Grouping: a chain of operands is a tree whose root is the rightmost connective of lowest
precedence, with both sides grouped the same way. Climbing from left to right builds that tree out
of the links that bind tightly enough, and leaves the others.
-/

namespace FormulaReader.Chain

variable {table : Precedence}

/-! ## The loosest link -/

/-- The rightmost of the links of lowest precedence, between the links before and after it. -/
def loosest? (table : Precedence) : List Link → Option (List Link × Link × List Link)
  | [] => none
  | link :: later =>
      match loosest? table later with
      | none => some ([], link, later)
      | some (before, root, after) =>
          if table.of root.connective ≤ table.of link.connective then
            some (link :: before, root, after)
          else
            some ([], link, later)

/-- The links are those of `before`, then `root`, then those of `after`; nothing is looser than
`root`, and all that comes after it is tighter. -/
structure Splits (table : Precedence) (links before : List Link) (root : Link)
    (after : List Link) : Prop where
  whole : links = before ++ root :: after
  left : ∀ link ∈ before, table.of root.connective ≤ table.of link.connective
  right : ∀ link ∈ after, table.of root.connective < table.of link.connective

theorem splits_of_loosest? {links before after : List Link} {root : Link}
    (found : loosest? table links = some (before, root, after)) :
    Splits table links before root after := by
  induction links generalizing before root after with
  | nil => simp [loosest?] at found
  | cons link later ih =>
      simp only [loosest?] at found
      cases inner : loosest? table later with
      | none =>
          have none_left : later = [] := by
            cases later with
            | nil => rfl
            | cons next rest =>
                simp only [loosest?] at inner
                split at inner
                · cases inner
                · split at inner <;> cases inner
          rw [inner] at found
          cases found
          exact ⟨rfl, by simp, by simp [none_left]⟩
      | some parts =>
          obtain ⟨innerBefore, innerRoot, innerAfter⟩ := parts
          have split := ih inner
          rw [inner] at found
          by_cases looser : table.of innerRoot.connective ≤ table.of link.connective
          · simp only [looser, if_true] at found
            cases found
            refine ⟨by rw [split.whole, List.cons_append], ?_, split.right⟩
            intro other member
            rcases List.mem_cons.mp member with rfl | earlier
            · exact looser
            · exact split.left other earlier
          · simp only [looser, if_false] at found
            cases found
            have tighter : table.of link.connective < table.of innerRoot.connective :=
              Int32.not_le.mp looser
            refine ⟨rfl, by simp, ?_⟩
            intro other member
            rw [split.whole] at member
            rcases List.mem_append.mp member with earlier | later
            · exact Int32.lt_of_lt_of_le tighter (split.left other earlier)
            · rcases List.mem_cons.mp later with rfl | last
              · exact tighter
              · exact Int32.lt_trans tighter (split.right other last)

theorem loosest?_of_splits {links before after : List Link} {root : Link}
    (splits : Splits table links before root after) :
    loosest? table links = some (before, root, after) := by
  obtain ⟨rfl, left, right⟩ := splits
  induction before with
  | nil =>
      simp only [List.nil_append, loosest?]
      cases inner : loosest? table after with
      | none => rfl
      | some parts =>
          obtain ⟨innerBefore, innerRoot, innerAfter⟩ := parts
          have member : innerRoot ∈ after := by
            rw [(splits_of_loosest? inner).whole]
            simp
          have notLooser : ¬ table.of innerRoot.connective ≤ table.of root.connective :=
            Int32.not_le.mpr (right innerRoot member)
          simp only [notLooser, if_false]
  | cons link before ih =>
      have later := ih fun other member => left other (List.mem_cons_of_mem link member)
      have looser : table.of root.connective ≤ table.of link.connective :=
        left link List.mem_cons_self
      simp only [List.cons_append, loosest?, later, looser, if_true]

theorem loosest?_eq_none_iff {links : List Link} :
    loosest? table links = none ↔ links = [] := by
  cases links with
  | nil => simp [loosest?]
  | cons link later =>
      simp only [loosest?, reduceCtorEq, iff_false]
      intro absent
      split at absent
      · cases absent
      · split at absent <;> cases absent

/-! ## The tree -/

/-- The tree of `left` and the links after it, by the loosest link. -/
def grouped (table : Precedence) (left : Expression) (links : List Link) : Expression :=
  match _found : loosest? table links with
  | none => left
  | some (before, root, after) =>
      .binary root.connective (grouped table left before) (grouped table root.operand after)
termination_by links.length
decreasing_by
  all_goals
    rw [(splits_of_loosest? _found).whole]
    simp only [List.length_append, List.length_cons]
    omega

@[simp] theorem grouped_nil (left : Expression) : grouped table left [] = left := by
  rw [grouped]
  rfl

theorem grouped_of_splits {links before after : List Link} {root : Link} (left : Expression)
    (splits : Splits table links before root after) :
    grouped table left links =
      .binary root.connective (grouped table left before) (grouped table root.operand after) := by
  rw [grouped]
  split
  · next absent =>
      rw [loosest?_of_splits splits] at absent
      cases absent
  · next found =>
      rw [loosest?_of_splits splits] at found
      cases found
      rfl

theorem grouped_singleton (left : Expression) (link : Link) :
    grouped table left [link] = .binary link.connective left link.operand := by
  have splits : Splits table [link] [] link [] := ⟨rfl, by simp, by simp⟩
  rw [grouped_of_splits left splits, grouped_nil, grouped_nil]

/-- A link together with all the tighter ones right after it can be grouped first, if what follows
is not tighter than the link. -/
theorem grouped_cons_append {link : Link} {inner rest : List Link} (left : Expression)
    (tighter : ∀ other ∈ inner, table.of link.connective < table.of other.connective)
    (stops : ∀ next ∈ rest.head?, table.of next.connective ≤ table.of link.connective) :
    grouped table left (link :: inner ++ rest) =
      grouped table (.binary link.connective left (grouped table link.operand inner)) rest := by
  induction size : rest.length using Nat.strongRecOn generalizing rest with
  | ind size ih =>
      subst size
      cases found : loosest? table rest with
      | none =>
          have nothing : rest = [] := loosest?_eq_none_iff.mp found
          subst nothing
          have splits : Splits table (link :: inner) [] link inner := ⟨rfl, by simp, tighter⟩
          rw [List.append_nil, grouped_of_splits left splits, grouped_nil, grouped_nil]
      | some parts =>
          obtain ⟨before, root, after⟩ := parts
          have splits := splits_of_loosest? found
          have rootLooser : table.of root.connective ≤ table.of link.connective := by
            cases before with
            | nil =>
                rw [splits.whole] at stops
                exact stops root rfl
            | cons next before =>
                have first := splits.left next List.mem_cons_self
                rw [splits.whole] at stops
                exact Int32.le_trans first (stops next rfl)
          have outer :
              Splits table (link :: inner ++ rest) (link :: inner ++ before) root after := by
            refine ⟨by rw [splits.whole]; simp, ?_, splits.right⟩
            intro other member
            rcases List.mem_append.mp member with early | late
            · rcases List.mem_cons.mp early with rfl | inside
              · exact rootLooser
              · exact Int32.le_of_lt (Int32.lt_of_le_of_lt rootLooser (tighter other inside))
            · exact splits.left other late
          have stopsBefore :
              ∀ next ∈ before.head?, table.of next.connective ≤ table.of link.connective := by
            cases before with
            | nil => simp
            | cons next before =>
                rw [splits.whole] at stops
                exact stops
          have shorter : before.length < rest.length := by
            rw [splits.whole]
            simp only [List.length_append, List.length_cons]
            omega
          rw [grouped_of_splits left outer, grouped_of_splits _ splits,
            ih before.length shorter stopsBefore rfl]

/-! ## Climbing -/

/-- Whether a link has at least the precedence `least`. -/
def bindsFrom (table : Precedence) (least : Int32) (link : Link) : Bool :=
  least ≤ table.of link.connective

/-- Where something is tighter than `precedence`, adding one does not overflow. -/
theorem toInt_succ {precedence bound : Int32} (room : precedence < bound) :
    (precedence + 1).toInt = precedence.toInt + 1 := by
  have below := Int32.lt_iff_toInt_lt.mp room
  have low := precedence.le_toInt
  have high := bound.toInt_lt
  rw [Int32.toInt_add, Int32.toInt_one]
  exact Int.bmod_eq_of_le (by omega) (by omega)

theorem succ_le_iff_lt {precedence other bound : Int32}
    (room : precedence < bound) :
    precedence + 1 ≤ other ↔ precedence < other := by
  rw [Int32.le_iff_toInt_le, Int32.lt_iff_toInt_lt, toInt_succ room]
  omega

theorem binds_of_mem_takeWhile {least : Int32} {links : List Link} {link : Link}
    (member : link ∈ links.takeWhile (bindsFrom table least)) :
    least ≤ table.of link.connective := by
  have all := List.all_eq_true.mp (List.all_takeWhile (p := bindsFrom table least) (l := links))
  simpa [bindsFrom] using all link member

theorem lt_of_mem_head?_dropWhile {least : Int32} {links : List Link} {link : Link}
    (head : link ∈ (links.dropWhile (bindsFrom table least)).head?) :
    table.of link.connective < least := by
  have outside := List.head?_dropWhile_not (bindsFrom table least) links
  rw [Option.mem_def.mp head] at outside
  simpa [bindsFrom] using outside

theorem mem_head?_of_mem_head?_takeWhile {least : Int32} {links : List Link} {link : Link}
    (head : link ∈ (links.takeWhile (bindsFrom table least)).head?) :
    link ∈ links.head? := by
  rw [List.head?_takeWhile] at head
  exact (Option.mem_filter_iff.mp head).1

theorem ofHead_of_mem_head? {links : List Link} {link : Link}
    (head : link ∈ links.head?) :
    table.ofHead links = table.of link.connective := by
  cases links with
  | nil => cases head
  | cons first rest =>
      cases head
      rfl

/-- Climbing takes the links up to the first one below `least`, and groups them. -/
theorem climb_eq (least : Int32) (left : Expression) (links : List Link) :
    (climb table least left links).1 =
        grouped table left (links.takeWhile (bindsFrom table least)) ∧
      (climb table least left links).2.1 = links.dropWhile (bindsFrom table least) := by
  fun_induction climb table least left links with
  | case1 least left => simp
  | case2 least left link later precedence below =>
      have outside : bindsFrom table least link = false := by
        simpa [bindsFrom] using below
      simp [outside]
  | case3 least left link later precedence notBelow tighterNext right further shorter climbed
      whole rest shortest climbedOn ihInner ihOuter =>
      rw [climbed] at ihInner
      rw [climbedOn] at ihOuter
      obtain ⟨rightEq, furtherEq⟩ := ihInner
      obtain ⟨wholeEq, restEq⟩ := ihOuter
      dsimp only at rightEq furtherEq wholeEq restEq ⊢
      have inside : bindsFrom table least link = true := by
        simpa [bindsFrom] using notBelow
      generalize innerEq : later.takeWhile (bindsFrom table (precedence + 1)) = inner at rightEq
      have parts : later = inner ++ further := by
        rw [← innerEq, furtherEq, List.takeWhile_append_dropWhile]
      have tighter : ∀ other ∈ inner, precedence < table.of other.connective := by
        intro other member
        rw [← innerEq] at member
        exact (succ_le_iff_lt tighterNext).mp (binds_of_mem_takeWhile member)
      have innerInside : ∀ other ∈ inner, bindsFrom table least other = true := by
        intro other member
        have above := Int32.lt_of_le_of_lt (Int32.not_lt.mp notBelow) (tighter other member)
        simpa [bindsFrom] using Int32.le_of_lt above
      have stops :
          ∀ next ∈ (further.takeWhile (bindsFrom table least)).head?,
            table.of next.connective ≤ precedence := by
        intro next head
        have atHead := mem_head?_of_mem_head?_takeWhile head
        rw [furtherEq] at atHead
        have below := Int32.not_le.mpr (lt_of_mem_head?_dropWhile atHead)
        rw [succ_le_iff_lt tighterNext] at below
        exact Int32.not_lt.mp below
      rw [List.takeWhile_cons_of_pos inside, List.dropWhile_cons_of_pos inside, parts,
        List.takeWhile_append_of_pos innerInside, List.dropWhile_append_of_pos innerInside]
      refine ⟨?_, restEq⟩
      rw [wholeEq, rightEq]
      exact (grouped_cons_append left tighter stops).symm
  | case4 least left link later precedence notBelow notTighter whole rest shorter climbedOn ih =>
      rw [climbedOn] at ih
      obtain ⟨wholeEq, restEq⟩ := ih
      dsimp only at wholeEq restEq ⊢
      have inside : bindsFrom table least link = true := by
        simpa [bindsFrom] using notBelow
      have stops :
          ∀ next ∈ (later.takeWhile (bindsFrom table least)).head?,
            table.of next.connective ≤ precedence := by
        intro next head
        have atHead := mem_head?_of_mem_head?_takeWhile head
        rw [ofHead_of_mem_head? atHead] at notTighter
        exact Int32.not_lt.mp notTighter
      rw [List.takeWhile_cons_of_pos inside, List.dropWhile_cons_of_pos inside]
      refine ⟨?_, restEq⟩
      have tighter : ∀ other ∈ ([] : List Link), precedence < table.of other.connective := by simp
      have alone := grouped_cons_append left tighter stops
      rw [grouped_nil] at alone
      rw [wholeEq]
      exact alone.symm

/-- Where every link binds from `least` on, climbing takes the whole chain. -/
theorem tree_eq_grouped {least : Int32} {links : List Link} (left : Expression)
    (bind : ∀ link ∈ links, least ≤ table.of link.connective) :
    tree table least left links = grouped table left links := by
  have inside : ∀ link ∈ links, bindsFrom table least link = true := by
    intro link member
    simpa [bindsFrom] using bind link member
  have all : links.takeWhile (bindsFrom table least) = links := by
    rw [← List.append_nil links, List.takeWhile_append_of_pos inside, List.takeWhile_nil]
  rw [tree, (climb_eq least left links).1, all]

end FormulaReader.Chain
