import NetSnmp.Asn.Types
import NetSnmp.LexCompare

/-!
# The order of object identifiers
-/

namespace NetSnmp

/-- `snmp_oid_compare`, for names with fewer than `2 ^ 31` subidentifiers. -/
def snmpOidCompare (name1 name2 : Oid) : Int := lexCompare name1 name2

theorem snmpOidCompare_neg_iff {name1 name2 : Oid} :
    snmpOidCompare name1 name2 < 0 ↔ name1 < name2 :=
  lexCompare_neg_iff

theorem snmpOidCompare_eq_zero_iff {name1 name2 : Oid} :
    snmpOidCompare name1 name2 = 0 ↔ name1 = name2 :=
  lexCompare_eq_zero_iff

theorem append_lt_append_iff_left (front : Oid) {left right : Oid} :
    front ++ left < front ++ right ↔ left < right := by
  induction front with
  | nil => rfl
  | cons first rest ih => simp [ih]

end NetSnmp
