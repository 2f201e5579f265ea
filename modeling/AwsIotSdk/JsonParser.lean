import AwsIotSdk.JsonValue

/-! The merge and the difference of JSON documents. Both go over the members of their
second document and look each name up in the first. -/

namespace AwsIotSdk

variable {ν : Type}

namespace JsonValue

/-- Replaces the value of the member of the name that comes first. -/
def setMember (name : Bytes) (value : JsonValue ν) :
    List (Bytes × JsonValue ν) → List (Bytes × JsonValue ν)
  | [] => []
  | m :: ms => if m.1 = name then (name, value) :: ms else m :: setMember name value ms

def eraseMember (name : Bytes) : List (Bytes × JsonValue ν) → List (Bytes × JsonValue ν)
  | [] => []
  | m :: ms => if m.1 = name then ms else m :: eraseMember name ms

end JsonValue

namespace JsonParser

open JsonValue

mutual

/-- The code and the target after the call. -/
def mergeValues : (target source : JsonValue ν) → ResponseCode × JsonValue ν
  | .object ts, .object ss =>
    let r := mergeMembers ts ss
    (r.1, .object r.2)
  | target, _ => (.jsonMergeFailed, target)

/-- The loop over the members of the source. A member that replaces another moves to
the end. -/
def mergeMembers : (ts ss : List (Bytes × JsonValue ν)) →
    ResponseCode × List (Bytes × JsonValue ν)
  | ts, [] => (.success, ts)
  | ts, (name, value) :: ss =>
    match ts.lookup name with
    | none => mergeMembers (ts ++ [(name, value)]) ss
    | some t =>
      if t.isObject && value.isObject then
        let r := mergeValues t value
        if r.1 ≠ .success then (r.1, setMember name r.2 ts)
        else mergeMembers (setMember name r.2 ts) ss
      else mergeMembers (eraseMember name ts ++ [(name, value)]) ss

end

section Diff

variable [JsonNumber ν]

mutual

/-- The code and the target after the call. -/
def diffValues : (target old new : JsonValue ν) → ResponseCode × JsonValue ν
  | _, .object os, .object ns =>
    let r := diffMembers [] os ns
    (r.1, .object r.2)
  | target, _, _ => (.jsonMergeFailed, target)

/-- The loop over the members of the new document. -/
def diffMembers : (target os ns : List (Bytes × JsonValue ν)) →
    ResponseCode × List (Bytes × JsonValue ν)
  | target, _, [] => (.success, target)
  | target, os, (name, value) :: ns =>
    match os.lookup name with
    | none => diffMembers (target ++ [(name, value)]) os ns
    | some o =>
      if o.eq value then diffMembers target os ns
      else if o.isObject && value.isObject then
        let r := diffValues (.object []) o value
        if r.1 ≠ .success then (r.1, target)
        else if 0 < r.2.memberCount then diffMembers (target ++ [(name, r.2)]) os ns
        else diffMembers target os ns
      else diffMembers (target ++ [(name, value)]) os ns

end

end Diff

end JsonParser

end AwsIotSdk
