/-
# Writing a file

Two trees are compared place by place, and at each place by what the node there
says about itself: a file by its permissions and content, a link by its target,
a directory by its permissions alone, as its entries stand at places of their
own. Writing a file changes a tree at the place of the file and nowhere else.

A path is then looked up in the new tree the way it was opened in the old one.
The walk passes the same directories and follows the same links, so it ends at
the file that was written.
-/

import CacheManifest.Proofs.Filesystem.Routes

namespace CacheManifest

namespace Node

/-- What a node says about itself, apart from what is below it. -/
inductive Face where
  | file (permissions : Permissions) (content : Bytes)
  | link (target : Path)
  | pipe
  | directory (permissions : Permissions)
deriving DecidableEq

/-- The face of a node. -/
def face : Node → Face
  | .file permissions content => .file permissions content
  | .link target => .link target
  | .pipe => .pipe
  | .directory permissions _ _ _ => .directory permissions

/-- The face of what stands at a place, if anything does. -/
def faceAt (node : Node) (place : Location) : Option Face := (node.at? place).map face

/-- The face of what is no directory is all there is to it. -/
theorem faceAt_eq_face_iff {node leaf : Node} {place : Location}
    (kind : leaf.isDirectory = false) :
    node.faceAt place = some leaf.face ↔ node.at? place = some leaf := by
  rw [faceAt, Option.map_eq_some_iff]
  constructor
  · rintro ⟨found, there, same⟩
    cases leaf with
    | directory => cases kind
    | file | link | pipe =>
        cases found <;> cases same
        exact there
  · intro there
    exact ⟨leaf, there, rfl⟩

/-- Two trees agree at every place but one. -/
def AgreeBut (place : Location) (first second : Node) : Prop :=
  ∀ other, other ≠ place → second.faceAt other = first.faceAt other

theorem AgreeBut.trans {place : Location} {first second third : Node}
    (early : AgreeBut place first second) (late : AgreeBut place second third) :
    AgreeBut place first third := by
  intro other elsewhere
  rw [late other elsewhere, early other elsewhere]

/-- Where two trees agree, there is the same kind of node in both. -/
theorem AgreeBut.exists_face {place other : Location} {first second found : Node}
    (agree : AgreeBut place first second) (elsewhere : other ≠ place)
    (there : first.at? other = some found) :
    ∃ next, second.at? other = some next ∧ next.face = found.face := by
  have same := agree other elsewhere
  rw [faceAt, faceAt, there, Option.map_some] at same
  exact Option.map_eq_some_iff.mp same

theorem AgreeBut.link_at {place other : Location} {first second : Node} {target : Path}
    (agree : AgreeBut place first second) (elsewhere : other ≠ place)
    (there : first.at? other = some (.link target)) : second.at? other = some (.link target) := by
  rw [← faceAt_eq_face_iff rfl] at there ⊢
  exact (agree other elsewhere).trans there

/-- No link comes up where there was none, if a file stands at the place that
may differ. -/
theorem AgreeBut.exists_unlinked {place other : Location} {first second found : Node}
    {permissions : Permissions} {content : Bytes} (agree : AgreeBut place first second)
    (stands : second.at? place = some (.file permissions content))
    (there : first.at? other = some found) (unlinked : ∀ target, found ≠ .link target) :
    ∃ next, second.at? other = some next ∧ ∀ target, next ≠ .link target := by
  by_cases here : other = place
  · exact ⟨_, here ▸ stands, by simp⟩
  · obtain ⟨next, now, same⟩ := agree.exists_face here there
    refine ⟨next, now, ?_⟩
    rintro target rfl
    cases found with
    | link other => exact unlinked other rfl
    | file | pipe | directory => cases same

@[simp]
theorem faceAt_nil (node : Node) : node.faceAt [] = some node.face := rfl

theorem faceAt_cons (node : Node) (name : Name) (rest : Location) :
    node.faceAt (name :: rest) = (node.child? name).bind fun next => next.faceAt rest := by
  rw [faceAt, at?_cons]
  cases node.child? name <;> rfl

/-- What is no directory has nothing below it. -/
theorem faceAt_cons_of_leaf {node : Node} (leaf : node.isDirectory = false) (name : Name)
    (rest : Location) : node.faceAt (name :: rest) = none := by
  cases node with
  | directory permissions names distinct child => cases leaf
  | file permissions content => rfl
  | link target => rfl
  | pipe => rfl

/-! ## Giving a directory an entry -/

theorem child?_setChild_self {node : Node} (directory : node.isDirectory = true) (name : Name)
    (entry : Node) : (node.setChild name entry).child? name = some entry := by
  obtain ⟨permissions, names, distinct, child, rfl⟩ := exists_of_isDirectory directory
  rw [setChild]
  split
  · next listed => simp [child?_directory, listed]
  · simp [child?_directory]

theorem child?_setChild_of_ne {node : Node} {name other : Name} (different : other ≠ name)
    (entry : Node) : (node.setChild name entry).child? other = node.child? other := by
  cases node with
  | file permissions content => rfl
  | link target => rfl
  | pipe => rfl
  | directory permissions names distinct child =>
      rw [setChild]
      split
      · simp [child?_directory, different]
      · simp [child?_directory, different]

theorem face_setChild (node : Node) (name : Name) (entry : Node) :
    (node.setChild name entry).face = node.face := by
  cases node with
  | file permissions content => rfl
  | link target => rfl
  | pipe => rfl
  | directory permissions names distinct child =>
      rw [setChild]
      split
      · rfl
      · rfl

theorem put_singleton (node : Node) (name : Name) (entry : Node) :
    node.put [name] entry = node.setChild name entry := by
  rw [put]
  cases node.child? name <;> rfl

theorem put_cons {node next : Node} {name : Name} (found : node.child? name = some next)
    (rest : Location) (entry : Node) :
    node.put (name :: rest) entry = node.setChild name (next.put rest entry) := by
  rw [put.eq_def]
  simp only [found]

/-- What is put into a directory stands there. -/
theorem at?_put_concat {node parent : Node} {front : Location}
    (there : node.at? front = some parent) (directory : parent.isDirectory = true) (name : Name)
    (entry : Node) : (node.put (front ++ [name]) entry).at? (front ++ [name]) = some entry := by
  induction front generalizing node with
  | nil =>
      obtain rfl : node = parent := by simpa using there
      rw [List.nil_append, put_singleton, at?_cons, child?_setChild_self directory]
      rfl
  | cons first rest ih =>
      obtain ⟨next, found, below⟩ := Option.bind_eq_some_iff.mp there
      rw [List.cons_append, put_cons found, at?_cons,
        child?_setChild_self (isDirectory_of_child? found)]
      exact ih below

/-- Putting a leaf in the place of nothing, or of another leaf, changes a tree at
that place only. -/
theorem agreeBut_put_concat {node parent entry : Node} {front : Location} {name : Name}
    (there : node.at? front = some parent) (directory : parent.isDirectory = true)
    (leaf : entry.isDirectory = false)
    (bare : ∀ found, parent.child? name = some found → found.isDirectory = false) :
    AgreeBut (front ++ [name]) node (node.put (front ++ [name]) entry) := by
  induction front generalizing node with
  | nil =>
      obtain rfl : node = parent := by simpa using there
      intro other elsewhere
      rw [List.nil_append, put_singleton]
      cases other with
      | nil => simp [face_setChild]
      | cons first rest =>
          rw [faceAt_cons, faceAt_cons]
          by_cases same : first = name
          · subst same
            obtain ⟨second, more, rfl⟩ := List.exists_cons_of_ne_nil
              (show rest ≠ [] from fun none_left => elsewhere (by rw [none_left]; rfl))
            rw [child?_setChild_self directory, Option.bind_some, faceAt_cons_of_leaf leaf]
            cases found : node.child? first with
            | none => rfl
            | some next => exact (faceAt_cons_of_leaf (bare next found) second more).symm
          · rw [child?_setChild_of_ne same]
  | cons outer rest ih =>
      obtain ⟨next, found, below⟩ := Option.bind_eq_some_iff.mp there
      intro other elsewhere
      rw [List.cons_append, put_cons found]
      cases other with
      | nil => simp [face_setChild]
      | cons first more =>
          rw [faceAt_cons, faceAt_cons]
          by_cases same : first = outer
          · subst same
            rw [child?_setChild_self (isDirectory_of_child? found), found]
            exact ih below more fun equal => elsewhere (by rw [equal, List.cons_append])
          · rw [child?_setChild_of_ne same]

/-- A place that takes a file, and the permissions the file has: either there is
one already, or a directory has nothing under the name. -/
inductive Takes (node : Node) : Location → Permissions → Prop where
  | vacant (front : Location) (name : Name) (parent : Node) (there : node.at? front = some parent)
    (directory : parent.isDirectory = true) (absent : parent.child? name = none) :
    Takes node (front ++ [name]) .newFile
  | present (place : Location) (permissions : Permissions) (content : Bytes)
    (there : node.at? place = some (.file permissions content)) : Takes node place permissions

/-- Before a file is written there is nothing, or a file with its permissions. -/
theorem Takes.at? {node : Node} {place : Location} {permissions : Permissions}
    (takes : node.Takes place permissions) :
    node.at? place = none ∨ ∃ content, node.at? place = some (.file permissions content) := by
  cases takes with
  | vacant front name parent there directory absent =>
      left
      rw [at?_concat, there, Option.bind_some, absent]
  | present place permissions content there => exact Or.inr ⟨content, there⟩

/-- What is no file stands at a place that takes none. -/
theorem Takes.ne_of_at? {node found : Node} {place other : Location} {permissions : Permissions}
    (takes : node.Takes place permissions) (there : node.at? other = some found)
    (kind : found.isFile = false) : other ≠ place := by
  rintro rfl
  rcases takes.at? with absent | ⟨content, file⟩
  · cases there.symm.trans absent
  · cases there.symm.trans file
    cases kind

/-- A leaf that is put where a file can be written stands there, and nothing else
is changed. -/
theorem Takes.put {node entry : Node} {place : Location} {permissions : Permissions}
    (takes : node.Takes place permissions) (leaf : entry.isDirectory = false) :
    (node.put place entry).at? place = some entry ∧ AgreeBut place node (node.put place entry) := by
  cases takes with
  | vacant front name parent there directory absent =>
      refine ⟨?_, ?_⟩
      · exact at?_put_concat there directory name entry
      · apply agreeBut_put_concat there directory leaf
        intro found here
        cases absent.symm.trans here
  | present place permissions content there =>
      rcases List.eq_nil_or_concat' place with rfl | ⟨front, name, rfl⟩
      · obtain rfl : node = .file permissions content := by simpa using there
        refine ⟨?_, ?_⟩
        · rfl
        · intro other elsewhere
          obtain ⟨first, rest, rfl⟩ := List.exists_cons_of_ne_nil elsewhere
          have before := faceAt_cons_of_leaf (show (file permissions content).isDirectory = false
            from rfl) first rest
          exact (faceAt_cons_of_leaf leaf first rest).trans before.symm
      · rw [at?_concat] at there
        obtain ⟨parent, reached, child⟩ := Option.bind_eq_some_iff.mp there
        have directory := isDirectory_of_child? child
        refine ⟨?_, ?_⟩
        · exact at?_put_concat reached directory name entry
        · apply agreeBut_put_concat reached directory leaf
          intro found here
          cases child.symm.trans here
          rfl

end Node

namespace Filesystem

/-! ## Opening and writing -/

/-- The place of a destination, whether there is something or not. -/
def Destination.place : Destination → Location
  | .present location => location
  | .vacant directory name => directory ++ [name]

/-- Steps end at a vacant place only if nothing is there. -/
theorem absent_of_advance {top : Node} {purpose : Purpose} {follow : Continuation}
    (follows : ∀ place steps demand directory name,
      follow place steps demand = .ok (.vacant directory name) →
        top.at? (directory ++ [name]) = none)
    {steps : List Step} {place directory : Location} {demand : Bool} {name : Name}
    (reached : advance top purpose follow place steps demand = .ok (.vacant directory name)) :
    top.at? (directory ++ [name]) = none := by
  induction steps generalizing place with
  | nil =>
      obtain ⟨same, -⟩ := advance_nil_eq_ok_iff.mp reached
      cases same
  | cons step rest ih =>
      obtain ⟨-, onward⟩ := onward_of_advance reached
      cases onward with
      | stay taken => exact ih taken
      | up taken => exact ih taken
      | vacant entered permitted absent last ends =>
          cases ends
          exact absent
      | link entered target permitted there followed => exact follows _ _ _ _ _ followed
      | node entered found permitted there unlinked taken => exact ih taken

theorem absent_of_walk {top : Node} {purpose : Purpose} {budget : Nat} {steps : List Step}
    {place directory : Location} {demand : Bool} {name : Name}
    (reached : walk top purpose budget place steps demand = .ok (.vacant directory name)) :
    top.at? (directory ++ [name]) = none := by
  induction budget generalizing place steps demand directory name with
  | zero =>
      refine absent_of_advance ?_ reached
      intro _ _ _ _ _ impossible
      cases impossible
  | succ budget ih =>
      refine absent_of_advance ?_ reached
      intro _ _ _ _ _ carried
      exact ih carried

theorem Enterable.of_agreeBut {first second : Node} {place other : Location}
    {permissions : Permissions} (enterable : Enterable first other)
    (takes : first.Takes place permissions)
    (agree : Node.AgreeBut place first second) : Enterable second other := by
  obtain ⟨permissions, names, distinct, child, here, enter⟩ := enterable
  obtain ⟨next, now, same⟩ := agree.exists_face (takes.ne_of_at? here rfl) here
  cases next with
  | directory leave listed unique below =>
      cases same
      exact ⟨permissions, listed, unique, below, now, enter⟩
  | file | link | pipe => cases same

/-- Steps that open a file in one tree lead to it in the tree where it has been
written. What is done at links may differ, as long as it ends at the file in both. -/
theorem advance_agreeBut {top rewritten : Node} {location : Location}
    {permissions : Permissions} {content : Bytes} (takes : top.Takes location permissions)
    (agree : Node.AgreeBut location top rewritten)
    (stands : rewritten.at? location = some (.file permissions content))
    {follow carry : Continuation}
    (follows : ∀ place steps directory destination,
      follow place steps directory = .ok destination → destination.place = location →
        carry place steps directory = .ok (.present location))
    {steps : List Step} {place : Location} {directory : Bool} {destination : Destination}
    (reached : advance top .creation follow place steps directory = .ok destination)
    (ends : destination.place = location) :
    advance rewritten .lookup carry place steps directory = .ok (.present location) := by
  induction steps generalizing place with
  | nil =>
      obtain ⟨rfl, node, there, demanding⟩ := advance_nil_eq_ok_iff.mp reached
      obtain rfl : place = location := ends
      rcases takes.at? with absent | ⟨_, file⟩
      · cases there.symm.trans absent
      · cases there.symm.trans file
        exact advance_nil_eq_ok_iff.mpr ⟨rfl, _, stands, demanding⟩
  | cons step rest ih =>
      obtain ⟨enterable, onward⟩ := onward_of_advance reached
      have enterable_still := enterable.of_agreeBut takes agree
      cases onward with
      | stay taken =>
          rw [advance_stay enterable_still]
          exact ih taken
      | up taken =>
          rw [advance_up enterable_still]
          exact ih taken
      | vacant name permitted absent last ends_there =>
          subst last ends_there
          obtain rfl : place ++ [name] = location := ends
          rw [advance_node enterable_still (not_refused_lookup _ _) stands (by simp),
            demand_eq_false_of_not_refused permitted]
          exact advance_nil_eq_ok_iff.mpr ⟨rfl, _, stands, by simp⟩
      | link name target permitted there followed =>
          have link_still := agree.link_at (takes.ne_of_at? there rfl) there
          rw [advance_link enterable_still (not_refused_lookup _ _) link_still]
          exact follows _ _ _ _ followed ends
      | node name found permitted there unlinked taken =>
          obtain ⟨next, node_still, unlinked_still⟩ := agree.exists_unlinked stands there unlinked
          rw [advance_node enterable_still (not_refused_lookup _ _) node_still unlinked_still]
          exact ih taken

/-- A walk that opens a file in one tree finds it in the other. -/
theorem walk_agreeBut {top rewritten : Node} {location : Location} {permissions : Permissions}
    {content : Bytes} (takes : top.Takes location permissions)
    (agree : Node.AgreeBut location top rewritten)
    (stands : rewritten.at? location = some (.file permissions content)) {budget : Nat}
    {steps : List Step} {place : Location} {directory : Bool} {destination : Destination}
    (reached : walk top .creation budget place steps directory = .ok destination)
    (ends : destination.place = location) :
    walk rewritten .lookup budget place steps directory = .ok (.present location) := by
  induction budget generalizing place steps directory destination with
  | zero =>
      refine advance_agreeBut takes agree stands ?_ reached ends
      intro _ _ _ _ impossible
      cases impossible
  | succ budget ih =>
      refine advance_agreeBut takes agree stands ?_ reached ends
      intro _ _ _ _ carried ends_there
      exact ih carried ends_there

/-- A file system in which a path has been opened for writing and written: the
path leads to a file with the content, where there was nothing or a file with the
same permissions, and nothing else has changed. -/
structure Written (before : Filesystem) (path : Path) (place : Location) (content : Bytes)
    (after : Filesystem) : Prop where
  leads : after.locate path = .ok place
  stands : ∃ permissions, after.top.at? place = some (.file permissions content) ∧
    (before.top.at? place = none ∨ ∃ old, before.top.at? place = some (.file permissions old))
  elsewhere : Node.AgreeBut place before.top after.top
  workingDirectory : after.workingDirectory = before.workingDirectory

variable {fs : Filesystem} {path : Path}

/-- Where a path can be written is where it leads, and it takes a file. -/
theorem exists_of_writablePlace {place : Location} {permissions : Permissions}
    (opened : fs.writablePlace path = .ok (place, permissions)) :
    fs.top.Takes place permissions ∧ ∃ destination, fs.resolve .creation path = .ok destination ∧
      destination.place = place := by
  rw [writablePlace] at opened
  cases resolved : fs.resolve .creation path with
  | error cause => simp [resolved] at opened
  | ok destination =>
      cases destination with
      | vacant directory name =>
          have absent := absent_of_walk (walk_of_resolve resolved).2
          simp only [resolved] at opened
          cases there : fs.top.at? directory with
          | none => simp [there] at opened
          | some node =>
              cases node with
              | directory leave names distinct child =>
                  simp only [there] at opened
                  split at opened
                  · cases opened
                    rw [Node.at?_concat, there, Option.bind_some] at absent
                    exact ⟨.vacant _ _ _ there rfl absent, _, rfl, rfl⟩
                  · cases opened
              | file | link | pipe => simp [there] at opened
      | present location =>
          simp only [resolved] at opened
          cases there : fs.top.at? location with
          | none => simp [there] at opened
          | some node =>
              cases node with
              | file leave content =>
                  simp only [there] at opened
                  split at opened
                  · cases opened
                    exact ⟨.present _ _ _ there, _, rfl, rfl⟩
                  · cases opened
              | link | pipe | directory => simp [there] at opened

/-- What opening a path does to a tree. -/
theorem exists_of_openEmpty {opened : Filesystem} {place : Location}
    (succeeded : fs.openEmpty path = .ok (opened, place)) :
    ∃ permissions, fs.top.Takes place permissions ∧
      (∃ destination, fs.resolve .creation path = .ok destination ∧ destination.place = place) ∧
      opened.top.at? place = some (.file permissions []) ∧
      Node.AgreeBut place fs.top opened.top ∧ opened.workingDirectory = fs.workingDirectory := by
  rw [openEmpty] at succeeded
  cases writable : fs.writablePlace path with
  | error cause => simp [writable] at succeeded
  | ok pair =>
      simp only [writable] at succeeded
      cases succeeded
      obtain ⟨takes, resolved⟩ := exists_of_writablePlace writable
      obtain ⟨stands, agree⟩ := takes.put (show (Node.file pair.2 []).isDirectory = false from rfl)
      exact ⟨pair.2, takes, resolved, stands, agree, rfl⟩

/-- Writing to a file that has been opened puts its bytes there and leaves the
rest as it was. -/
theorem append_opened {opened : Filesystem} {place : Location} {permissions : Permissions}
    (stands : opened.top.at? place = some (.file permissions [])) (bytes : Bytes) :
    (opened.append place bytes).top.at? place = some (.file permissions bytes) ∧
      Node.AgreeBut place opened.top (opened.append place bytes).top ∧
      (opened.append place bytes).workingDirectory = opened.workingDirectory := by
  have takes : opened.top.Takes place permissions := .present _ _ _ stands
  obtain ⟨written, agree⟩ :=
    takes.put (show (Node.file permissions bytes).isDirectory = false from rfl)
  have shape : opened.append place bytes =
      { opened with top := opened.top.put place (.file permissions bytes) } := by
    simp [append, stands]
  rw [shape]
  exact ⟨written, agree, rfl⟩

/-- A path that is opened and then written names a file with just the bytes that
were written, and nothing else changes. -/
theorem written_of_openEmpty {opened : Filesystem} {place : Location}
    (succeeded : fs.openEmpty path = .ok (opened, place)) (bytes : Bytes) :
    Written fs path place bytes (opened.append place bytes) := by
  obtain ⟨permissions, takes, ⟨destination, resolved, ends⟩, empty, agree, same⟩ :=
    exists_of_openEmpty succeeded
  obtain ⟨stands, agree_more, still⟩ := append_opened empty bytes
  have unchanged := agree.trans agree_more
  obtain ⟨sound, walked⟩ := walk_of_resolve resolved
  have found := walk_agreeBut takes unchanged stands walked ends
  refine ⟨?_, ⟨permissions, stands, takes.at?⟩, unchanged, still.trans same⟩
  rw [locate, resolve, sound]
  dsimp only
  rw [still, same, found]

end Filesystem

end CacheManifest
