import AccessControl.Config.Layer

/-!
# What layers leave and what they set

What a setting holds is reached by paths of names. A layer that does not mention a path leaves what
is at its end, and a layer that by itself puts a text, a list or another value that is no object at
the end of a path puts it there whatever it is laid over. Members of objects stay in ascending
order.
-/

namespace AccessControl

namespace Setting

/-- What a setting holds at the end of a path of names. It is null where there is nothing. -/
def reached : List String → Setting → Setting
  | [], setting => setting
  | name :: path, setting => reached path ((NameMap.find name setting.members).getD .null)

/-- Nothing is below null. -/
theorem reached_null (path : List String) : reached path .null = .null := by
  induction path with
  | nil => rfl
  | cons name path ih => exact ih

/-- A path can be gone in two parts. -/
theorem reached_append (front back : List String) (setting : Setting) :
    reached (front ++ back) setting = reached back (reached front setting) := by
  induction front generalizing setting with
  | nil => rfl
  | cons name front ih => exact ih _

/-- Something at the end of a path is in an object, in its member under the first name. -/
theorem exists_of_reached_ne_null {name : String} {path : List String} {setting : Setting}
    (h : reached (name :: path) setting ≠ .null) :
    ∃ members inner, setting = .object members ∧ NameMap.find name members = some inner ∧
      reached path inner = reached (name :: path) setting := by
  cases setting with
  | object members =>
    cases hfind : NameMap.find name members with
    | none =>
      rw [reached, Setting.members, hfind, Option.getD_none, reached_null] at h
      exact absurd rfl h
    | some inner =>
      refine ⟨members, inner, rfl, hfind, ?_⟩
      rw [reached, Setting.members, hfind, Option.getD_some]
  | _ => exact absurd (reached_null path) h

/-- A changed member is reached through its name. -/
theorem reached_alterMember (name : String) (path : List String) (change : Setting → Setting)
    (setting : Setting) :
    reached (name :: path) (setting.alterMember name change) =
      reached path (change (reached [name] setting)) := by
  rw [reached, alterMember, members, NameMap.find_place, if_pos rfl, Option.getD_some]
  rfl

/-- Changing a member leaves the others. -/
theorem reached_alterMember_of_ne {name other : String} (h : name ≠ other) (path : List String)
    (change : Setting → Setting) (setting : Setting) :
    reached (other :: path) (setting.alterMember name change) =
      reached (other :: path) setting := by
  rw [reached, alterMember, members, NameMap.find_place, if_neg (Ne.symm h), reached]

/-- Whether laying a value over the end of a path may change what is at the end of a path of names.
It may if the one path goes on where the other one ends, except that an object leaves the names that
it does not have. An index makes a list of whatever is in its place. -/
def touches : List Step → Setting → List String → Bool
  | _, _, [] => true
  | .member name :: steps, value, other :: path => name == other && touches steps value path
  | .item _ :: _, _, _ :: _ => true
  | [], .object members, other :: path =>
    members.any (fun member => member.1 == other && touches [] member.2 path)
  | [], _, _ :: _ => true

/-- Members that do not touch a path leave what is at its end, if their values do so below them. -/
theorem reached_overlayMembers_of_not_touches {other : String} {path : List String}
    (hpath : ∀ value present, touches [] value path = false →
      reached path (overlay value present) = reached path present)
    {members : List (String × Setting)}
    (h : members.any (fun member => member.1 == other && touches [] member.2 path) = false)
    (present : Setting) :
    reached (other :: path) (overlayMembers members present) = reached (other :: path) present := by
  induction members generalizing present with
  | nil => rfl
  | cons member rest ih =>
    obtain ⟨name, value⟩ := member
    rw [List.any_cons, Bool.or_eq_false_iff] at h
    obtain ⟨hfirst, hrest⟩ := h
    rw [overlayMembers, ih hrest]
    by_cases hname : name = other
    · subst hname
      have hvalue : touches [] value path = false := by
        rwa [beq_self_eq_true, Bool.true_and] at hfirst
      rw [reached_alterMember, hpath value _ hvalue]
      rfl
    · exact reached_alterMember_of_ne hname path _ present

/-- A value that does not touch a path leaves what is at its end. -/
theorem reached_overlay_of_not_touches {path : List String} {value : Setting}
    (h : touches [] value path = false) (present : Setting) :
    reached path (overlay value present) = reached path present := by
  induction path generalizing value present with
  | nil => cases h
  | cons other path ih =>
    cases value with
    | object members =>
      rw [overlay]
      exact reached_overlayMembers_of_not_touches (fun value present h => ih h present) h _
    | _ => cases h

/-- What is laid over the end of a path leaves what it does not touch. -/
theorem reached_alter_of_not_touches {steps : List Step} {value : Setting} {path : List String}
    (h : touches steps value path = false) (present : Setting) :
    reached path (alter (overlay value) steps present) = reached path present := by
  induction steps generalizing path present with
  | nil => exact reached_overlay_of_not_touches h present
  | cons step steps ih =>
    cases path with
    | nil => cases h
    | cons other path =>
      cases step with
      | item index => cases h
      | member name =>
        rw [alter]
        by_cases hname : name = other
        · subst hname
          have hsteps : touches steps value path = false := by
            rwa [touches, beq_self_eq_true, Bool.true_and] at h
          rw [reached_alterMember, ih hsteps]
          rfl
        · exact reached_alterMember_of_ne hname path _ present

/-- Whether a value takes the place of what it is laid over: it is neither an object nor null. -/
def isLeaf : Setting → Bool
  | .null | .object _ => false
  | _ => true

/-- Whether a setting holds what another one does at the end of a path, if that is a leaf. -/
def Keeps (path : List String) (first second : Setting) : Prop :=
  (reached path first).isLeaf = true → reached path second = reached path first

/-- What is no object at the end of a path need not be kept. -/
theorem keeps_of_not_isLeaf {path : List String} {first : Setting}
    (h : (reached path first).isLeaf = false) (second : Setting) : Keeps path first second := by
  intro hleaf
  rw [h] at hleaf
  cases hleaf

/-- Laying members over what is no leaf gives no leaf. -/
theorem isLeaf_overlayMembers (members : List (String × Setting)) {present : Setting}
    (h : present.isLeaf = false) : (overlayMembers members present).isLeaf = false := by
  induction members generalizing present with
  | nil => exact h
  | cons member rest ih => exact ih rfl

/-- Changing a member keeps a path through another member, and one through the member itself if the
change keeps what is below it. -/
theorem Keeps.alterMember {name other : String} {path : List String} {first second : Setting}
    {change : Setting → Setting} (h : Keeps (other :: path) first second)
    (hchange : ∀ first second, Keeps path first second →
      Keeps path (change first) (change second)) :
    Keeps (other :: path) (first.alterMember name change) (second.alterMember name change) := by
  by_cases hname : name = other
  · subst hname
    have hbelow : Keeps path (reached [name] first) (reached [name] second) := h
    have hchanged := hchange _ _ hbelow
    rwa [Keeps, reached_alterMember, reached_alterMember]
  · rwa [Keeps, reached_alterMember_of_ne hname, reached_alterMember_of_ne hname]

/-- Laying a value over two settings keeps a path. -/
theorem Keeps.overlay {path : List String} {first second : Setting} (h : Keeps path first second)
    (value : Setting) : Keeps path (overlay value first) (overlay value second) := by
  induction path generalizing value first second with
  | nil =>
    cases value with
    | object members =>
      have hobject : (reached [] (Setting.overlay (.object members) first)).isLeaf = false :=
        isLeaf_overlayMembers members rfl
      exact keeps_of_not_isLeaf hobject _
    | _ => exact fun _ => rfl
  | cons other path ih =>
    cases value with
    | object members =>
      have hmembers : ∀ {first second : Setting}, Keeps (other :: path) first second →
          Keeps (other :: path) (overlayMembers members first) (overlayMembers members second) := by
        induction members with
        | nil => exact fun h => h
        | cons member rest ihrest =>
          exact fun h => ihrest (h.alterMember fun first second h => ih h member.2)
      exact hmembers h
    | _ => exact fun _ => rfl

/-- Laying a value over the end of a path of names in two settings keeps a path. -/
theorem Keeps.alter {steps : List Step} {path : List String} {first second : Setting}
    (h : Keeps path first second) (hsteps : ∀ step ∈ steps, ∃ name, step = .member name)
    (value : Setting) :
    Keeps path (alter (Setting.overlay value) steps first)
      (alter (Setting.overlay value) steps second) := by
  induction steps generalizing path first second with
  | nil => exact h.overlay value
  | cons step steps ih =>
    obtain ⟨⟨name, rfl⟩, hrest⟩ := List.forall_mem_cons.mp hsteps
    cases path with
    | nil => exact keeps_of_not_isLeaf rfl _
    | cons other path => exact h.alterMember fun first second h => ih h hrest

/-- Whether the members of all objects that are reached by names are in ascending order. -/
def Ordered (setting : Setting) : Prop :=
  ∀ path, NameMap.Ascending (reached path setting).members

/-- Null has no members. -/
theorem ordered_null : Ordered .null := by
  intro path
  rw [reached_null]
  exact List.Pairwise.nil

/-- A value that is no object has no members. -/
theorem ordered_of_members_eq_nil {setting : Setting} (h : setting.members = []) :
    setting.Ordered := by
  intro path
  cases path with
  | nil =>
    rw [reached, h]
    exact List.Pairwise.nil
  | cons name path =>
    rw [reached, h]
    exact ordered_null path

/-- What is reached in an ordered setting is ordered. -/
theorem Ordered.reached {setting : Setting} (h : setting.Ordered) (front : List String) :
    (reached front setting).Ordered := by
  intro path
  rw [← reached_append]
  exact h (front ++ path)

/-- Changing a member leaves a setting ordered, if the change does. -/
theorem Ordered.alterMember {setting : Setting} (h : setting.Ordered) (name : String)
    {change : Setting → Setting} (hchange : ∀ old : Setting, old.Ordered → (change old).Ordered) :
    (setting.alterMember name change).Ordered := by
  intro path
  cases path with
  | nil => exact NameMap.ascending_place name _ (h [])
  | cons other path =>
    by_cases hname : name = other
    · subst hname
      rw [reached_alterMember]
      exact hchange _ (h.reached [name]) path
    · rw [reached_alterMember_of_ne hname]
      exact h (other :: path)

mutual

/-- Laying a value over an ordered setting leaves it ordered. -/
theorem Ordered.overlay : (value : Setting) → {present : Setting} → present.Ordered →
    (overlay value present).Ordered
  | .object members, present, h =>
    have hmembers : Ordered (.object present.members) := by
      intro path
      cases path with
      | nil => exact h []
      | cons name path => exact h (name :: path)
    Ordered.overlayMembers members hmembers
  | .null, _, _ | .bool _, _, _ | .number _, _, _ | .string _, _, _ | .array _, _, _ =>
    ordered_of_members_eq_nil rfl

/-- Laying members over an ordered setting leaves it ordered. -/
theorem Ordered.overlayMembers : (members : List (String × Setting)) → {present : Setting} →
    present.Ordered → (overlayMembers members present).Ordered
  | [], _, h => h
  | (name, value) :: rest, _, h =>
    Ordered.overlayMembers rest (h.alterMember name (fun _ hold => Ordered.overlay value hold))

end

/-- Laying a value over the end of a path leaves a setting ordered. -/
theorem Ordered.alter {setting : Setting} (h : setting.Ordered) (steps : List Step)
    (value : Setting) : (alter (Setting.overlay value) steps setting).Ordered := by
  induction steps generalizing setting with
  | nil => exact h.overlay value
  | cons step steps ih =>
    cases step with
    | member name => exact h.alterMember name (fun _ hold => ih hold)
    | item index =>
      cases index <;> exact ordered_of_members_eq_nil rfl

end Setting

namespace Layer

open Setting

/-- Whether some entry of a layer touches a path of names. -/
def mentions (layer : Layer) (path : List String) : Bool :=
  layer.any (fun entry => touches (stepsOf entry.1) entry.2 path)

/-- Whether the entries of a layer that touch a path of names go there by names alone, without an
index into a list. -/
def ByNames (layer : Layer) (path : List String) : Prop :=
  ∀ entry ∈ layer, touches (stepsOf entry.1) entry.2 path = true →
    ∀ step ∈ stepsOf entry.1, ∃ name, step = .member name

/-- What a layer puts at the end of a path of names, by itself and by names. -/
structure Sets (layer : Layer) (path : List String) (value : Setting) : Prop where
  /-- The layer goes there by names. -/
  byNames : layer.ByNames path
  /-- By itself the layer puts the value there. -/
  reached_eq : reached path (layer.applyTo (.object [])) = value

/-- The first entry of a layer is laid over first. -/
theorem applyTo_cons (entry : String × Setting) (rest : Layer) (present : Setting) :
    applyTo (entry :: rest) present =
      applyTo rest (alter (overlay entry.2) (stepsOf entry.1) present) := rfl

/-- A layer leaves what is at the end of a path that it does not mention. -/
theorem reached_applyTo {layer : Layer} {path : List String} (h : layer.mentions path = false)
    (present : Setting) : reached path (layer.applyTo present) = reached path present := by
  induction layer generalizing present with
  | nil => rfl
  | cons entry rest ih =>
    rw [mentions, List.any_cons, Bool.or_eq_false_iff] at h
    rw [applyTo_cons, ih h.2, reached_alter_of_not_touches h.1]

/-- Layers leave what is at the end of a path that none of them mentions. -/
theorem reached_foldl {layers : List Layer} {path : List String}
    (h : ∀ layer ∈ layers, layer.mentions path = false) (present : Setting) :
    reached path (layers.foldl (fun present layer => layer.applyTo present) present) =
      reached path present := by
  induction layers generalizing present with
  | nil => rfl
  | cons layer rest ih =>
    obtain ⟨hlayer, hrest⟩ := List.forall_mem_cons.mp h
    rw [List.foldl_cons, ih hrest, reached_applyTo hlayer]

/-- A layer keeps a path to which it goes by names. -/
theorem keeps_applyTo {layer : Layer} {path : List String} (h : layer.ByNames path)
    {first second : Setting} (hkeeps : Keeps path first second) :
    Keeps path (layer.applyTo first) (layer.applyTo second) := by
  induction layer generalizing first second with
  | nil => exact hkeeps
  | cons entry rest ih =>
    obtain ⟨hentry, hrest⟩ := List.forall_mem_cons.mp h
    rw [applyTo_cons, applyTo_cons]
    refine ih hrest ?_
    cases htouches : touches (stepsOf entry.1) entry.2 path with
    | true => exact hkeeps.alter (hentry htouches) entry.2
    | false =>
      rwa [Keeps, reached_alter_of_not_touches htouches, reached_alter_of_not_touches htouches]

/-- Where a layer by itself puts a leaf, it puts it whatever it is laid over. -/
theorem Sets.reached_applyTo {layer : Layer} {path : List String} {value : Setting}
    (h : layer.Sets path value) (hleaf : value.isLeaf = true) (present : Setting) :
    reached path (layer.applyTo present) = value := by
  have hnothing : (reached path (.object [])).isLeaf = false := by
    cases path with
    | nil => rfl
    | cons name path =>
      rw [reached, members, NameMap.find, Option.getD_none, reached_null]
      rfl
  have hkeeps : Keeps path (layer.applyTo (.object [])) (layer.applyTo present) :=
    keeps_applyTo h.byNames (keeps_of_not_isLeaf hnothing present)
  have hreached := h.reached_eq
  rw [← hreached] at hleaf ⊢
  exact hkeeps hleaf

/-- A layer leaves a setting ordered. -/
theorem ordered_applyTo (layer : Layer) {present : Setting} (h : present.Ordered) :
    (layer.applyTo present).Ordered := by
  induction layer generalizing present with
  | nil => exact h
  | cons entry rest ih => exact ih (h.alter (stepsOf entry.1) entry.2)

/-- Layers laid over each other are ordered. -/
theorem ordered_stack (layers : List Layer) : (stack layers).Ordered := by
  have hfold : ∀ present : Setting, present.Ordered →
      (layers.foldl (fun present layer => layer.applyTo present) present).Ordered := by
    induction layers with
    | nil => exact fun _ h => h
    | cons layer rest ih => exact fun present h => ih _ (layer.ordered_applyTo h)
  exact hfold _ (ordered_of_members_eq_nil rfl)

/-- What the layers above do not mention is as the layer below them leaves it. -/
theorem reached_stack {below above : List Layer} {layer : Layer} {path : List String}
    (h : ∀ other ∈ above, other.mentions path = false) :
    reached path (stack (below ++ layer :: above)) =
      reached path (layer.applyTo (stack below)) := by
  have hstack : stack (below ++ layer :: above) =
      above.foldl (fun present layer => layer.applyTo present) (layer.applyTo (stack below)) := by
    rw [stack, List.foldl_append, List.foldl_cons]
    rfl
  rw [hstack, reached_foldl h]

end Layer

end AccessControl
