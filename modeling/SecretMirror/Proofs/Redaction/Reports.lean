import SecretMirror.Proofs.Redaction.Completeness
import SecretMirror.Proofs.Redaction.Disclosure
import SecretMirror.Proofs.Redaction.Order

/-!
# Redacted reports

The text of a fault is logged as `redact` leaves it.  That is the whole row of sweeps over its
characters, with the fields in one order (`toList_redact`), so what is true of the sweeps in every
order is true of reports:

* No assignment to a sensitive field is left with a value of its own (`isRedacted_redact`).
* Behind the name of a field before which no word begins, values of one length leave the same report
  (`redact_eq_of_beginsNoWord`).  A value that no sweep swallows stands in the report
  (`toList_redact_of_not_swallows`).
* On a text that is orderly behind the sweeps for key material, the order that was taken makes no
  difference (`toList_redact_of_orderly`).
-/

namespace SecretMirror.Redaction

variable {p field w v v' s : List Char} {sep : Char}

/-- A report is what the sweeps over its characters leave, first those for key material and then
those for the sensitive fields, in the order in which `redact` takes them. -/
theorem toList_redact (text : String) : (redact text).toList = redactWith fields text.toList :=
  String.toList_ofList

/-- In a report every assignment to a sensitive field has the mark as its value, whatever the text
was that it was made from. -/
theorem isRedacted_redact (text : String) (hfield : field ∈ fields) :
    IsRedacted field (redact text).toList := by
  rw [toList_redact]
  exact isRedacted_foldl (fun _ hother => hother) hfield (.inl hfield)

/-- Two values of one length behind the name of a field leave the same report, if nothing that a
sweep looks for begins before the name. -/
theorem redact_eq_of_beginsNoWord (hfield : field ∈ fields) (hp : BeginsNoWord p field)
    (hsep : sep = ':' ∨ sep = '=') (hw : ∀ c ∈ w, Text.isBlank c = true) (hs : EndsValue s)
    (hv : IsValue v) (hv' : IsValue v') (hlen : v'.length = v.length) :
    redact (String.ofList (p ++ field ++ sep :: w ++ (v ++ s))) =
      redact (String.ofList (p ++ field ++ sep :: w ++ (v' ++ s))) := by
  have hn : v.length ≠ 0 := fun hnil => hv.nonempty (List.eq_nil_of_length_eq_zero hnil)
  have hperm := List.Perm.refl fields
  have hswallows := swallows_of_beginsNoWord hperm hfield hp hsep hw hn
  obtain ⟨l, z, hleft, hz⟩ := exists_border p field hsep hw
  rw [← String.toList_inj, toList_redact, toList_redact, String.toList_ofList,
    String.toList_ofList, redactWith_eq_foldl, redactWith_eq_foldl, hleft]
  rw [hleft] at hswallows
  exact foldl_sweep_of_swallows (fun f hf => respectsValues_of_mem hperm hf) hz hv hv' hlen hs
    hswallows

/-- A value that no sweep swallows is in the report as it was in the text. -/
theorem toList_redact_of_not_swallows (hsep : sep = ':' ∨ sep = '=')
    (hw : ∀ c ∈ w, Text.isBlank c = true) (hs : EndsValue s) (hv : IsValue v)
    (h : swallows v.length (forms fields) (p ++ field ++ sep :: w) = false) :
    (redact (String.ofList (p ++ field ++ sep :: w ++ (v ++ s)))).toList =
      redactWith fields (p ++ field ++ sep :: w) ++ (v ++ redactWith fields s) := by
  rw [toList_redact, String.toList_ofList]
  exact redactWith_of_not_swallows (List.Perm.refl fields) hsep hw hs hv h

/-- Where the sweeps for key material leave an orderly text, the report is what any order of the
fields would have made of it. -/
theorem toList_redact_of_orderly {text : String}
    (h : Orderly (keyWords.foldl redactKey text.toList)) {order : List (List Char)}
    (horder : order.Perm fields) : (redact text).toList = redactWith order text.toList := by
  rw [toList_redact]
  exact h.orderFree fields order (List.Perm.refl fields) horder

example : redact "aescbc: c2VjcmV0, \"token\"=abc" = "[REDACTED], token: [REDACTED]" := rfl

end SecretMirror.Redaction
