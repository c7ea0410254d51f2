import GameIngress.Json.Basic

/-!
# Merge patches

A patch that is an object changes the members that it names and leaves the others alone; null
removes a member. Any other patch replaces the whole value.
-/
namespace GameIngress.Json

/-- Members of an object; any other value counts as an object without members. -/
def membersOrNone : Json → Members
  | .object ms => ms
  | _ => []

mutual
def mergePatch : Json → Json → Json
  | .object patch, target => .object (mergeMembers patch target.membersOrNone)
  | patch, _ => patch
def mergeMembers : List (String × Json) → Members → Members
  | [], target => target
  | (k, .null) :: rest, target => mergeMembers rest (target.erase k)
  | (k, v) :: rest, target =>
    mergeMembers rest (target.set k (mergePatch v ((target.get? k).getD .null)))
end

/-- Set a value at the end of a path of keys, with objects on the way where there are none. -/
def setAt : Json → List String → Json → Json
  | _, [], v => v
  | j, k :: rest, v =>
    let ms := j.membersOrNone
    .object (ms.set k (setAt ((Members.get? ms k).getD .null) rest v))

end GameIngress.Json
