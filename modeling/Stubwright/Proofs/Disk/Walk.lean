import Stubwright.Proofs.Disk.Path
import Stubwright.Proofs.Disk.Tree

/-!
Where paths lead. `Leads` has one rule for each kind of step that a walk takes, and a walk succeeds
exactly if the rules lead to its result; what a walk does in a tree is told by induction on them.
-/
namespace Stubwright.Disk

structure IsStep (name : String) : Prop where
  still : ¬ (name = "." ∨ name = "/")
  upwards : name ≠ ".."
  short : name.utf8ByteSize ≤ longestName

def LastStep.stopsAt (last : LastStep) : Option Node → Prop
  | some .directory => False
  | some (.link _) => last = .entry
  | _ => True

theorem LastStep.entry_stopsAt {node : Option Node} (leaf : node ≠ some .directory) :
    LastStep.entry.stopsAt node := by
  rcases node with _ | (_ | _ | _ | _)
  case some.directory => exact leaf rfl
  case some.link => rfl
  all_goals trivial

inductive Leads (tree : Tree) (last : LastStep) : Nat → List String → Place → Spot → Prop
  | here {links : Nat} {here : Place} : Leads tree last links [] here ⟨here, some .directory⟩
  | skip {links : Nat} {name : String} {rest : List String} {here : Place} {spot : Spot}
      (still : name = "." ∨ name = "/") (led : Leads tree last links rest here spot) :
      Leads tree last links (name :: rest) here spot
  | up {links : Nat} {rest : List String} {here : Place} {spot : Spot}
      (led : Leads tree last links rest here.dropLast spot) :
      Leads tree last links (".." :: rest) here spot
  | down {links : Nat} {name : String} {rest : List String} {here : Place} {spot : Spot}
      (step : IsStep name) (slash : ¬ (last = .written ∧ rest = ["/"]))
      (found : tree.node? (here ++ [name]) = some .directory)
      (led : Leads tree last links rest (here ++ [name]) spot) :
      Leads tree last links (name :: rest) here spot
  | follow {links : Nat} {name target : String} {rest : List String} {here : Place} {spot : Spot}
      (step : IsStep name) (slash : ¬ (last = .written ∧ rest = ["/"]))
      (found : tree.node? (here ++ [name]) = some (.link target))
      (through : ¬ (rest = [] ∧ last = .entry))
      (led : Leads tree last links (steps target ++ rest)
        (if Path.isAbsolute target then [] else here) spot) :
      Leads tree last (links + 1) (name :: rest) here spot
  | stop {links : Nat} {name : String} {here : Place} (step : IsStep name)
      (stops : last.stopsAt (tree.node? (here ++ [name]))) :
      Leads tree last links [name] here ⟨here ++ [name], tree.node? (here ++ [name])⟩

variable {tree after : Tree} {last : LastStep} {links left : Nat} {todo front more rest : List String}
  {here place : Place} {spot : Spot} {name target : String}

def onward (tree : Tree) (last : LastStep) : Nat → List String → Place → Except SystemFault Spot
  | 0, _, _ => .error .linkLoop
  | links + 1, todo, here => walk tree last links todo here

theorem walk_eq (tree : Tree) (last : LastStep) (links : Nat) :
    walk tree last links = walkUntilLink tree last (onward tree last links) := by
  cases links <;> rfl

theorem walk_skip (still : name = "." ∨ name = "/") :
    walk tree last links (name :: rest) here = walk tree last links rest here := by
  rw [walk_eq, walkUntilLink]
  exact if_pos (by simpa using still)

theorem walk_up :
    walk tree last links (".." :: rest) here = walk tree last links rest here.dropLast := by
  rw [walk_eq, walkUntilLink]
  simp

theorem walk_step (step : IsStep name) (slash : ¬ (last = .written ∧ rest = ["/"])) :
    walk tree last links (name :: rest) here =
      match tree.node? (here ++ [name]) with
      | some .directory => walk tree last links rest (here ++ [name])
      | some (.link target) =>
          if rest.isEmpty && last = .entry then .ok ⟨here ++ [name], some (.link target)⟩
          else onward tree last links (steps target ++ rest)
            (if Path.isAbsolute target then [] else here)
      | some node => if rest.isEmpty then .ok ⟨here ++ [name], some node⟩ else .error .notDirectory
      | none => if rest.isEmpty then .ok ⟨here ++ [name], none⟩ else .error .notFound := by
  rw [walk_eq, walkUntilLink]
  dsimp only
  rewrite [if_neg (by simpa using step.still), if_neg step.upwards, if_neg (by simpa using slash),
    if_neg (Nat.not_lt.mpr step.short)]
  rcases tree.node? (here ++ [name]) with _ | (_ | _ | _ | _)
  all_goals rfl

theorem Leads.walk_eq_ok (led : Leads tree last links todo here spot) :
    walk tree last links todo here = .ok spot := by
  induction led with
  | here => rw [walk_eq, walkUntilLink]
  | skip still _ ih => rw [walk_skip still, ih]
  | up _ ih => rw [walk_up, ih]
  | down step slash found _ ih => simp only [walk_step step slash, found, ih]
  | @follow links name target rest here spot step slash found through _ ih =>
      have goes_on : ¬ (rest.isEmpty && decide (last = .entry)) = true := by simpa using through
      simp only [walk_step step slash, found]
      rw [if_neg goes_on, onward, ih]
  | @stop links name here step stops =>
      have slash : ¬ (last = .written ∧ ([] : List String) = ["/"]) := by simp
      rw [walk_step step slash]
      rcases found : tree.node? (here ++ [name]) with _ | (_ | _ | target | _)
      case some.directory =>
        rw [found] at stops
        exact stops.elim
      case some.link =>
        rw [found] at stops
        have entry : last = .entry := stops
        simp [entry]
      all_goals simp

/-- Up to the first link there is one rule for each step; behind it the walk goes on with a link less.
-/
theorem leads_of_walkUntilLink
    (behind : ∀ todo here, onward tree last links todo here = .ok spot →
      ∃ left, links = left + 1 ∧ Leads tree last left todo here spot)
    (walked : walkUntilLink tree last (onward tree last links) todo here = .ok spot) :
    Leads tree last links todo here spot := by
  have step_of {name : String} (still : ¬ (decide (name = ".") || decide (name = "/")) = true)
      (upwards : ¬ name = "..") (short : ¬ name.utf8ByteSize > longestName) : IsStep name :=
    ⟨by simpa using still, upwards, Nat.not_lt.mp short⟩
  fun_induction walkUntilLink tree last (onward tree last links) todo here with
  | case1 =>
      cases walked
      exact .here
  | case2 name rest here still ih => exact .skip (by simpa using still) (ih walked)
  | case3 rest here _ ih => exact .up (ih walked)
  | case6 name rest here still upwards slash short place found ih =>
      exact .down (step_of still upwards short) (by simpa using slash) found (ih walked)
  | case7 name rest here still upwards slash short place target found ends =>
      obtain ⟨rfl, entry⟩ : rest = [] ∧ last = .entry := by simpa using ends
      cases walked
      have stops : last.stopsAt (tree.node? (here ++ [name])) := by rw [found]; exact entry
      exact found ▸ Leads.stop (step_of still upwards short) stops
  | case8 name rest here still upwards slash short place target found through =>
      obtain ⟨left, rfl, led⟩ := behind _ _ walked
      exact .follow (step_of still upwards short) (by simpa using slash) found
        (by simpa using through) led
  | case9 name rest here still upwards slash short place node isFile notLink found ends =>
      obtain rfl : rest = [] := by simpa using ends
      cases walked
      have stops : last.stopsAt (tree.node? (here ++ [name])) := by
        rw [found]
        cases node with
        | directory => exact isFile rfl
        | link target => exact (notLink target rfl).elim
        | _ => trivial
      exact found ▸ Leads.stop (step_of still upwards short) stops
  | case11 name rest here still upwards slash short place found ends =>
      obtain rfl : rest = [] := by simpa using ends
      cases walked
      have stops : last.stopsAt (tree.node? (here ++ [name])) := by rw [found]; trivial
      exact found ▸ Leads.stop (step_of still upwards short) stops
  | _ => cases walked

theorem leads_of_walk (walked : walk tree last links todo here = .ok spot) :
    Leads tree last links todo here spot := by
  induction links generalizing todo here with
  | zero =>
      rw [walk_eq] at walked
      exact leads_of_walkUntilLink (fun _ _ looped => by cases looped) walked
  | succ links ih =>
      rw [walk_eq] at walked
      exact leads_of_walkUntilLink (fun _ _ followed => ⟨links, rfl, ih followed⟩) walked

/-- Steps that lead from a directory to a directory, with some of the links left. -/
inductive Descends (tree : Tree) : Nat → List String → Place → Nat → Place → Prop
  | here {links : Nat} {here : Place} : Descends tree links [] here links here
  | skip {links left : Nat} {name : String} {rest : List String} {here place : Place}
      (still : name = "." ∨ name = "/") (descent : Descends tree links rest here left place) :
      Descends tree links (name :: rest) here left place
  | up {links left : Nat} {rest : List String} {here place : Place}
      (descent : Descends tree links rest here.dropLast left place) :
      Descends tree links (".." :: rest) here left place
  | down {links left : Nat} {name : String} {rest : List String} {here place : Place}
      (step : IsStep name) (found : tree.node? (here ++ [name]) = some .directory)
      (descent : Descends tree links rest (here ++ [name]) left place) :
      Descends tree links (name :: rest) here left place
  | follow {links left : Nat} {name target : String} {rest : List String} {here place : Place}
      (step : IsStep name) (found : tree.node? (here ++ [name]) = some (.link target))
      (descent : Descends tree links (steps target ++ rest)
        (if Path.isAbsolute target then [] else here) left place) :
      Descends tree (links + 1) (name :: rest) here left place

def Node.isPassage : Node → Prop
  | .directory => True
  | .link _ => True
  | _ => False

def Tree.KeepsPassages (tree after : Tree) : Prop :=
  ∀ place node, node.isPassage → tree.node? place = some node → after.node? place = some node

/-- Every directory and every link of one tree is in the other or has made way for neither. -/
def Tree.KeepsOrCloses (tree after : Tree) : Prop :=
  ∀ place node, node.isPassage → tree.node? place = some node →
    after.node? place = some node ∨
      ∀ passage, passage.isPassage → after.node? place ≠ some passage

theorem not_lone_slash (some_more : more ≠ []) (slash : ¬ (last = .written ∧ more = ["/"])) :
    ¬ (last = .written ∧ rest ++ more = ["/"]) := by
  rintro ⟨written, alone⟩
  cases rest with
  | nil => exact slash ⟨written, alone⟩
  | cons first others => simp [some_more] at alone

theorem Descends.leads (descent : Descends tree links front here left place) (some_more : more ≠ [])
    (slash : ¬ (last = .written ∧ more = ["/"])) (led : Leads tree last left more place spot) :
    Leads tree last links (front ++ more) here spot := by
  induction descent with
  | here => exact led
  | skip still _ ih => exact .skip still (ih led)
  | up _ ih => exact .up (ih led)
  | down step found _ ih => exact .down step (not_lone_slash some_more slash) found (ih led)
  | follow step found _ ih =>
      refine .follow step (not_lone_slash some_more slash) found (by simp [some_more]) ?_
      have goes_on := ih led
      rwa [List.append_assoc] at goes_on

theorem Leads.descends (led : Leads tree last links (front ++ more) here spot)
    (some_more : more ≠ []) :
    ∃ left place, Descends tree links front here left place ∧ Leads tree last left more place spot := by
  generalize whole : front ++ more = todo at led
  -- The first steps vary: behind a link they begin with the target.
  induction led generalizing front with
  | here => simp [some_more] at whole
  | @skip links name rest here spot still led ih =>
      rcases List.append_eq_cons_iff.mp whole with ⟨rfl, rfl⟩ | ⟨others, rfl, rfl⟩
      · exact ⟨_, _, .here, .skip still led⟩
      · obtain ⟨left, place, descent, goes_on⟩ := ih rfl
        exact ⟨left, place, .skip still descent, goes_on⟩
  | @up links rest here spot led ih =>
      rcases List.append_eq_cons_iff.mp whole with ⟨rfl, rfl⟩ | ⟨others, rfl, rfl⟩
      · exact ⟨_, _, .here, .up led⟩
      · obtain ⟨left, place, descent, goes_on⟩ := ih rfl
        exact ⟨left, place, .up descent, goes_on⟩
  | @down links name rest here spot step slash found led ih =>
      rcases List.append_eq_cons_iff.mp whole with ⟨rfl, rfl⟩ | ⟨others, rfl, rfl⟩
      · exact ⟨_, _, .here, .down step slash found led⟩
      · obtain ⟨left, place, descent, goes_on⟩ := ih rfl
        exact ⟨left, place, .down step found descent, goes_on⟩
  | @follow links name target rest here spot step slash found through led ih =>
      rcases List.append_eq_cons_iff.mp whole with ⟨rfl, rfl⟩ | ⟨others, rfl, rfl⟩
      · exact ⟨_, _, .here, .follow step slash found through led⟩
      · obtain ⟨left, place, descent, goes_on⟩ := ih (List.append_assoc _ _ _)
        exact ⟨left, place, .follow step found descent, goes_on⟩
  | @stop links name here step stops =>
      rcases List.append_eq_cons_iff.mp whole with ⟨rfl, rfl⟩ | ⟨others, -, nothing⟩
      · exact ⟨_, _, .here, .stop step stops⟩
      · simp [some_more] at nothing

theorem Descends.leads_target (descent : Descends tree links todo here left place) :
    Leads tree .target links todo here ⟨place, some .directory⟩ := by
  induction descent with
  | here => exact .here
  | skip still _ ih => exact .skip still ih
  | up _ ih => exact .up ih
  | down step found _ ih => exact .down step (by simp) found ih
  | follow step found _ ih => exact .follow step (by simp) found (by simp) ih

theorem Descends.leads_entry (descent : Descends tree links todo here left place) :
    ∃ spot, Leads tree .entry links todo here spot ∧ spot.node ≠ none := by
  induction descent with
  | here => exact ⟨_, .here, by simp⟩
  | skip still _ ih =>
      obtain ⟨spot, leads, some_node⟩ := ih
      exact ⟨spot, .skip still leads, some_node⟩
  | up _ ih =>
      obtain ⟨spot, leads, some_node⟩ := ih
      exact ⟨spot, .up leads, some_node⟩
  | down step found _ ih =>
      obtain ⟨spot, leads, some_node⟩ := ih
      exact ⟨spot, .down step (by simp) found leads, some_node⟩
  | @follow links left name target rest here place step found _ ih =>
      -- A link at the end is the entry itself, and the walk stops there.
      by_cases ends : rest = []
      · subst ends
        have stops : LastStep.entry.stopsAt (tree.node? (here ++ [name])) := by
          rw [found]
          rfl
        exact ⟨_, .stop step stops, by simp [found]⟩
      · obtain ⟨spot, leads, some_node⟩ := ih
        exact ⟨spot, .follow step (by simp) found (by simp [ends]) leads, some_node⟩

/-- Where the passages are kept, a walk that ends in a directory, then or now, is a descent. -/
theorem Leads.descends_kept (kept : tree.KeepsPassages after)
    (led : Leads tree last links todo here spot)
    (directory : spot.node = some .directory ∨ after.node? spot.place = some .directory) :
    ∃ left, Descends after links todo here left spot.place := by
  induction led with
  | here => exact ⟨_, .here⟩
  | skip still _ ih =>
      obtain ⟨left, descent⟩ := ih directory
      exact ⟨left, .skip still descent⟩
  | up _ ih =>
      obtain ⟨left, descent⟩ := ih directory
      exact ⟨left, .up descent⟩
  | down step _ found _ ih =>
      obtain ⟨left, descent⟩ := ih directory
      exact ⟨left, .down step (kept _ .directory trivial found) descent⟩
  | @follow links name target rest here spot step _ found _ _ ih =>
      obtain ⟨left, descent⟩ := ih directory
      exact ⟨left, .follow step (kept _ (.link target) trivial found) descent⟩
  | stop step _ =>
      have below := directory.elim (kept _ .directory trivial) id
      exact ⟨_, .down step below .here⟩

theorem Leads.descends_directory (led : Leads tree last links todo here ⟨place, some .directory⟩) :
    ∃ left, Descends tree links todo here left place :=
  led.descends_kept (fun _ _ _ found => found) (.inl rfl)

theorem Leads.unique {other : Spot} (led : Leads tree last links todo here spot)
    (ledToo : Leads tree last links todo here other) : other = spot :=
  Except.ok.inj (ledToo.walk_eq_ok.symm.trans led.walk_eq_ok)

theorem Descends.unique {leftToo : Nat} {other : Place}
    (descent : Descends tree links todo here left place)
    (descentToo : Descends tree links todo here leftToo other) : other = place :=
  congrArg Spot.place (descent.leads_target.unique descentToo.leads_target)

/-- A walk that does not end in a directory ends with a name, and tells what is there. -/
theorem Leads.ends_in_name (led : Leads tree last links todo here spot)
    (leaf : spot.node ≠ some .directory) :
    (∃ above name, spot.place = above ++ [name]) ∧ spot.node = tree.node? spot.place ∧
      last.stopsAt spot.node := by
  induction led with
  | here => exact absurd rfl leaf
  | skip _ _ ih => exact ih leaf
  | up _ ih => exact ih leaf
  | down _ _ _ _ ih => exact ih leaf
  | follow _ _ _ _ _ ih => exact ih leaf
  | stop _ stops => exact ⟨⟨_, _, rfl⟩, rfl, stops⟩

theorem Leads.place_ne_nil (led : Leads tree last links todo here spot)
    (leaf : spot.node ≠ some .directory) : spot.place ≠ [] := by
  obtain ⟨⟨above, name, inside⟩, -, -⟩ := led.ends_in_name leaf
  simp [inside]

theorem Leads.missing (led : Leads tree last links todo here ⟨place, none⟩) :
    place ≠ [] ∧ tree.node? place = none :=
  ⟨led.place_ne_nil (by simp), (led.ends_in_name (by simp)).2.1.symm⟩

/-- Where the passages are kept, a walk leads to the same place. What stands there may have changed
if it was no directory. -/
theorem Leads.kept (kept : tree.KeepsPassages after) (led : Leads tree last links todo here spot) :
    (spot.node = some .directory → Leads after last links todo here spot) ∧
      (spot.node ≠ some .directory → last.stopsAt (after.node? spot.place) →
        Leads after last links todo here ⟨spot.place, after.node? spot.place⟩) := by
  induction led with
  | here => exact ⟨fun _ => .here, fun other => absurd rfl other⟩
  | skip still _ ih =>
      exact ⟨fun same => .skip still (ih.1 same), fun leaf stops => .skip still (ih.2 leaf stops)⟩
  | up _ ih => exact ⟨fun same => .up (ih.1 same), fun leaf stops => .up (ih.2 leaf stops)⟩
  | down step slash found _ ih =>
      have stays := kept _ .directory trivial found
      exact ⟨fun same => .down step slash stays (ih.1 same),
        fun leaf stops => .down step slash stays (ih.2 leaf stops)⟩
  | follow step slash found through _ ih =>
      have stays := kept _ (.link _) trivial found
      exact ⟨fun same => .follow step slash stays through (ih.1 same),
        fun leaf stops => .follow step slash stays through (ih.2 leaf stops)⟩
  | stop step stops =>
      refine ⟨fun directory => ?_, fun _ stopsAfter => .stop step stopsAfter⟩
      dsimp only at directory
      rw [directory] at stops
      exact stops.elim

theorem Leads.of_kept {node : Node}
    (kept : ∀ place node, tree.node? place = some node → after.node? place = some node)
    (led : Leads tree last links todo here ⟨place, some node⟩) :
    Leads after last links todo here ⟨place, some node⟩ := by
  obtain ⟨directory, leaf⟩ := led.kept fun place node _ => kept place node
  by_cases same : node = .directory
  · exact directory (congrArg some same)
  · have apart : some node ≠ some Node.directory := fun equal => same (Option.some.inj equal)
    obtain ⟨-, found, stops⟩ := led.ends_in_name apart
    have stays := kept _ _ found.symm
    dsimp only at stops
    have again := leaf apart (by rwa [stays])
    rwa [stays] at again

theorem Leads.only_step (led : Leads tree last links [name] here spot)
    (moves : ¬ (name = "." ∨ name = "/")) (downwards : name ≠ "..")
    (missing : tree.node? (here ++ [name]) = none) :
    IsStep name ∧ spot = ⟨here ++ [name], none⟩ := by
  cases led with
  | skip still _ => exact absurd still moves
  | up => exact absurd rfl downwards
  | down _ _ found _ => simp [missing] at found
  | follow _ _ found _ _ => simp [missing] at found
  | stop step _ => exact ⟨step, by rw [missing]⟩

theorem Leads.entry_step (led : Leads tree .entry links [name] here spot)
    (moves : ¬ (name = "." ∨ name = "/")) (downwards : name ≠ "..") :
    spot = ⟨here ++ [name], tree.node? (here ++ [name])⟩ := by
  cases led with
  | skip still _ => exact absurd still moves
  | up => exact absurd rfl downwards
  | down _ _ found led =>
      cases led
      rw [found]
  | follow _ _ _ through _ => exact absurd ⟨rfl, rfl⟩ through
  | stop => rfl

/-- Without links and steps upwards a walk stays below where it is. -/
theorem Leads.stays_below {base : Place} (led : Leads tree last links todo here spot)
    (no_link : ∀ other target, base <+: other → tree.node? other ≠ some (.link target))
    (downwards : ".." ∉ todo) (inside : base <+: here) : base <+: spot.place := by
  induction led with
  | here => exact inside
  | skip _ _ ih => exact ih (fun member => downwards (List.mem_cons_of_mem _ member)) inside
  | up => exact absurd List.mem_cons_self downwards
  | down _ _ _ _ ih =>
      exact ih (fun member => downwards (List.mem_cons_of_mem _ member))
        (inside.trans (List.prefix_append _ _))
  | follow _ _ found _ _ =>
      exact absurd found (no_link _ _ (inside.trans (List.prefix_append _ _)))
  | stop => exact inside.trans (List.prefix_append _ _)

def Tree.IsOpen (tree : Tree) (here : Place) (way : List String) : Prop :=
  ∀ front target, front <+: way → tree.node? (here ++ front) ≠ some (.link target)

/-- Names lead down an open way, and nothing but what is on the way matters. -/
theorem Leads.along_names (led : Leads tree last links todo here spot)
    (names : ∀ name ∈ todo, ¬ (name = "." ∨ name = "/") ∧ name ≠ "..")
    (isOpen : tree.IsOpen here todo) :
    spot.place = here ++ todo ∧ ∀ after linksAfter,
      (∀ front, front <+: todo → after.node? (here ++ front) = tree.node? (here ++ front)) →
      Leads after last linksAfter todo here spot := by
  induction led with
  | here => exact ⟨(List.append_nil _).symm, fun _ _ _ => .here⟩
  | skip still _ _ => exact absurd still (names _ List.mem_cons_self).1
  | up => exact absurd rfl (names _ List.mem_cons_self).2
  | @down links name rest here spot step slash found _ ih =>
      have further (front : List String) : here ++ [name] ++ front = here ++ (name :: front) := by
        rw [List.append_assoc, List.singleton_append]
      obtain ⟨there, leads⟩ := ih (fun name later => names name (List.mem_cons_of_mem _ later))
        fun front target onWay => by
          rw [further]
          exact isOpen _ target (List.cons_prefix_cons.mpr ⟨rfl, onWay⟩)
      refine ⟨there.trans (further rest), fun after linksAfter agree => ?_⟩
      have stays := agree [name] (List.cons_prefix_cons.mpr ⟨rfl, List.nil_prefix⟩)
      refine .down step slash (stays.trans found) (leads after linksAfter fun front onWay => ?_)
      rw [further]
      exact agree _ (List.cons_prefix_cons.mpr ⟨rfl, onWay⟩)
  | follow step slash found _ _ =>
      exact absurd found (isOpen [_] _ (List.cons_prefix_cons.mpr ⟨rfl, List.nil_prefix⟩))
  | stop step stops =>
      refine ⟨rfl, fun after linksAfter agree => ?_⟩
      have stays := agree [_] List.prefix_rfl
      rw [← stays] at stops ⊢
      exact .stop step stops

theorem Leads.finds_nothing (led : Leads tree last links todo here spot)
    (empty : ∀ name ∈ todo, tree.node? (here ++ [name]) = none)
    (downwards : ".." ∉ todo) (some_step : ∃ name ∈ todo, ¬ (name = "." ∨ name = "/")) :
    spot.node = none := by
  induction led with
  | here => simp at some_step
  | @skip links name rest here spot still _ ih =>
      refine ih (fun name later => empty name (List.mem_cons_of_mem _ later))
        (fun member => downwards (List.mem_cons_of_mem _ member)) ?_
      obtain ⟨moving, member, moves⟩ := some_step
      rcases List.mem_cons.mp member with rfl | later
      · exact absurd still moves
      · exact ⟨moving, later, moves⟩
  | up => exact absurd List.mem_cons_self downwards
  | down _ _ found _ _ => simp [empty _ List.mem_cons_self] at found
  | follow _ _ found _ _ _ => simp [empty _ List.mem_cons_self] at found
  | stop => exact empty _ List.mem_cons_self

theorem Leads.descends_made (led : Leads tree last links todo here ⟨place, none⟩) :
    ∃ left, Descends (tree.put place .directory) links todo here left place := by
  obtain ⟨inside, missing⟩ := led.missing
  have kept : tree.KeepsPassages (tree.put place .directory) :=
    fun other node _ found => Tree.node?_put_of_some inside missing found
  exact led.descends_kept kept (.inr (by rw [Tree.node?_put _ inside, if_pos rfl]))

theorem steps_cases (path : String) :
    steps path = Path.named path ∨ steps path = Path.named path ++ ["/"] := by
  rw [steps]
  split
  · exact .inr rfl
  · exact .inl rfl

theorem Path.named_join_of_flat (flat : '/' ∉ name.toList) (filled : name ≠ "") (directory : String) :
    named (join directory name) = named directory ++ [name] := by
  have alone : named name = [name] := by
    rw [named, pieces_of_not_mem flat, List.filter_cons_of_pos (by simp [filled]), List.filter_nil]
  rw [named_join (isAbsolute_eq_false_of_not_mem flat), alone]

theorem Path.steps_join_of_flat (flat : '/' ∉ name.toList) (filled : name ≠ "") (directory : String) :
    steps (join directory name) = named (join directory name) := by
  have some_char : name.toList ≠ [] := by simpa using filled
  have last : (join directory name).toList.getLast? = name.toList.getLast? := by
    rw [join_eq_stem (isAbsolute_eq_false_of_not_mem flat), String.toList_append,
      List.getLast?_append, List.getLast?_eq_some_getLast some_char, Option.some_or]
  rw [steps, last, if_neg]
  · rfl
  · rw [beq_iff_eq]
    exact fun slash => flat (List.mem_of_getLast? slash)

theorem mem_steps {path : String} (member : name ∈ steps path) :
    name ∈ Path.pieces path ∨ name = "/" := by
  rcases steps_cases path with short | long
  · rw [short] at member
    exact .inl (Path.mem_pieces_of_mem_named member)
  · rw [long] at member
    rcases List.mem_append.mp member with piece | slash
    · exact .inl (Path.mem_pieces_of_mem_named piece)
    · exact .inr (List.mem_singleton.mp slash)

section Unseen

/-- A name that no walk from a place without it comes across. -/
structure Tree.Hides (tree : Tree) (unseen : String) : Prop where
  slash : unseen ≠ "/"
  links : ∀ place target, unseen ∉ place → tree.node? place = some (.link target) →
    unseen ∉ Path.pieces target

theorem Tree.Hides.not_mem_steps {unseen : String} (hides : tree.Hides unseen)
    (clean : unseen ∉ place) (found : tree.node? place = some (.link target)) :
    unseen ∉ steps target := by
  intro member
  rcases mem_steps member with piece | same
  · exact hides.links place target clean found piece
  · exact hides.slash same

/-- Walks agree in trees that agree wherever a name is not on the way. -/
theorem Leads.unseen {unseen : String} (led : Leads tree last links todo here spot)
    (hides : tree.Hides unseen)
    (agree : ∀ place, unseen ∉ place → after.node? place = tree.node? place)
    (notAhead : unseen ∉ todo) (notHere : unseen ∉ here) :
    Leads after last links todo here spot ∧ unseen ∉ spot.place := by
  have onward {here : Place} {name : String} {rest : List String}
      (notAhead : unseen ∉ name :: rest) (notHere : unseen ∉ here) :
      unseen ∉ rest ∧ unseen ∉ here ++ [name] := by
    rw [List.mem_cons, not_or] at notAhead
    exact ⟨notAhead.2, by simp [notHere, notAhead.1]⟩
  induction led with
  | here => exact ⟨.here, notHere⟩
  | skip still _ ih =>
      obtain ⟨leads, clean⟩ := ih (onward notAhead notHere).1 notHere
      exact ⟨.skip still leads, clean⟩
  | up _ ih =>
      have above : unseen ∉ _ := fun member => notHere (List.dropLast_subset _ member)
      obtain ⟨leads, clean⟩ := ih (onward notAhead notHere).1 above
      exact ⟨.up leads, clean⟩
  | down step slash found _ ih =>
      obtain ⟨ahead, below⟩ := onward notAhead notHere
      obtain ⟨leads, clean⟩ := ih ahead below
      exact ⟨.down step slash (by rw [agree _ below, found]) leads, clean⟩
  | @follow links name target rest here spot step slash found through _ ih =>
      obtain ⟨ahead, below⟩ := onward notAhead notHere
      have notInTarget := hides.not_mem_steps below found
      have start : unseen ∉ if Path.isAbsolute target then [] else here := by
        split
        · simp
        · exact notHere
      obtain ⟨leads, clean⟩ := ih (by simp [notInTarget, ahead]) start
      exact ⟨.follow step slash (by rw [agree _ below, found]) through leads, clean⟩
  | @stop links name here step stops =>
      have below := (onward notAhead notHere).2
      have same := agree _ below
      refine ⟨?_, below⟩
      rw [← same]
      exact .stop step (same ▸ stops)

end Unseen

end Stubwright.Disk
