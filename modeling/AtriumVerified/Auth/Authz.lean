import AtriumVerified.Lib.Text

/-!
# Roles

The model of the role vocabulary of `packages/auth/src/authz.ts`, `workspace.ts` and `org.ts`: how a
stored role is read, which of two is the lower, and what counts as a demotion; and of the kinds of
principal of `principal.ts`. A role that cannot be read grants nothing.
-/

namespace Auth

inductive Role where
  | owner
  | admin
  | member
  deriving DecidableEq, Repr

namespace Role

def text : Role → String
  | owner => "owner"
  | admin => "admin"
  | member => "member"

end Role

def roleRank : Role → Nat
  | .member => 1
  | .admin => 2
  | .owner => 3

/-- The role that a text names when it passes `isRole`. -/
def readRole (text : List Char) : Option Role :=
  if text = "owner".toList then some .owner
  else if text = "admin".toList then some .admin
  else if text = "member".toList then some .member
  else none

/-- The loop of `parseRole`. -/
def strongest : Option Role → List (List Char) → Option Role
  | best, [] => best
  | best, candidate :: rest =>
    match readRole candidate with
    | none => none
    | some role =>
      match best with
      | none => strongest (some role) rest
      | some known => strongest (some (if roleRank known < roleRank role then role else known)) rest

def parseRole (raw : String) : Option Role :=
  strongest none ((raw.toList.splitOn ',').map Js.trim)

def lowerOf (left right : String) : String :=
  match parseRole left, parseRole right with
  | none, _ => left
  | some _, none => right
  | some a, some b => if roleRank a ≤ roleRank b then left else right

def roomRole (workspaceRole : String) : Option Role := parseRole workspaceRole

/-- `assertKnownRole`: the role, trimmed, or `none` where it raises. -/
def assertKnownRole (raw : String) : Option String :=
  (readRole (Js.trim raw.toList)).map Role.text

def isDemotion (currentRole : Option String) (nextRole : String) : Bool :=
  match currentRole with
  | none => false
  | some currentRole =>
    match parseRole currentRole, parseRole nextRole with
    | some current, some next => roleRank next < roleRank current
    | _, _ => true

inductive PrincipalKind where
  | human
  | agent
  deriving DecidableEq, Repr

def parsePrincipalKind (value : Option String) : Option PrincipalKind :=
  match value with
  | some "human" => some .human
  | some "agent" => some .agent
  | _ => none

/-! ## Reading and comparing -/

/-- How much a role that may be missing lets its holder do. -/
def level : Option Role → Nat
  | none => 0
  | some role => roleRank role

@[simp] theorem level_none : level none = 0 := rfl

@[simp] theorem level_some (role : Role) : level (some role) = roleRank role := rfl

theorem roleRank_pos (role : Role) : 0 < roleRank role := by
  cases role <;> decide

theorem roleRank_injective : Function.Injective roleRank := by
  intro a b h
  cases a <;> cases b <;> first | rfl | cases h

theorem level_injective : Function.Injective level := by
  intro a b h
  match a, b, h with
  | none, none, _ => rfl
  | none, some b, h => exact absurd h (Nat.ne_of_lt (roleRank_pos b))
  | some a, none, h => exact absurd h.symm (Nat.ne_of_lt (roleRank_pos a))
  | some a, some b, h => rw [roleRank_injective h]

theorem level_lowerOf (left right : String) :
    level (parseRole (lowerOf left right))
      = min (level (parseRole left)) (level (parseRole right)) := by
  cases hleft : parseRole left with
  | none => simp [lowerOf, hleft]
  | some a =>
    cases hright : parseRole right with
    | none => simp [lowerOf, hleft, hright]
    | some b =>
      simp only [lowerOf, hleft, hright, level_some]
      split
      · rename_i hle
        rw [hleft, level_some, Nat.min_eq_left hle]
      · rename_i hlt
        rw [hright, level_some, Nat.min_eq_right (Nat.le_of_not_le hlt)]

end Auth
