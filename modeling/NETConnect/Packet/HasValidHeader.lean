import NETConnect.Packet.Segmentation
/-!
# The two header readers

`HasValidHeader` hands out a header, or the bytes of one with the length it
announces.  Both overloads take the bytes out of the queue.
-/

namespace NETConnect.SocketExtensions

open Lib PacketHeader

/-- The result and the `out` arguments of `HasValidHeader(out byte[], out int)`. -/
structure RawHeader where
  result : Bool
  headerBytes : Bytes := []
  dataLength : BitVec 32 := 0
  deriving DecidableEq, Repr

/-- `HasValidHeader(out byte[], out int)`; its `Receive` returns `count` bytes. -/
def hasValidHeaderBytes (s : Tcp) (count : Nat) : Option (Tcp × RawHeader) :=
  if headerSize ≤ s.available then
    (s.receive headerSize count).map fun r =>
      match validateHeader r.1 with
      -- nothing is returned here
      | some header =>
          (r.2, { result := false, headerBytes := r.1, dataLength := header.byteLength })
      | none => (r.2, { result := false })
  else some (s, { result := false })

/-- The readers take the same bytes and return the same verdict, which is that there
are enough of them, and what one hands out is the header of the other. -/
structure ReadAlike (s : Tcp) (raw : Tcp × RawHeader) (read : Tcp × Option PacketHeader) :
    Prop where
  consumed : raw.1 = read.1
  untouched : s.available < headerSize → read.1 = s
  verdict : raw.2.result = read.2.isSome
  found : read.2.isSome = true ↔ headerSize ≤ s.available
  decoded : ∀ header, read.2 = some header →
    validateHeader raw.2.headerBytes = some header ∧ raw.2.dataLength = header.byteLength

/-- Whatever the `Receive` returns, the readers read alike. -/
def HeadersAgree (s : Tcp) : Prop :=
  ∀ count raw read, hasValidHeaderBytes s count = some raw → hasValidHeader s count = some read →
    ReadAlike s raw read

/-! ## What the readers share -/

theorem hasValidHeaderBytes_idle {s : Tcp} {count : Nat} (hshort : s.available < headerSize) :
    hasValidHeaderBytes s count = some (s, { result := false }) := by
  rw [hasValidHeaderBytes, if_neg (Nat.not_le.2 hshort)]

/-- But for its result, the first reader does what the second one does. -/
theorem hasValidHeaderBytes_ready {s t : Tcp} {count : Nat} {header : PacketHeader}
    (h : hasValidHeader s count = some (t, some header)) :
    ∃ headerBytes, validateHeader headerBytes = some header ∧
      hasValidHeaderBytes s count =
        some (t, { result := false, headerBytes, dataLength := header.byteLength }) := by
  have hready : headerSize ≤ s.available := by
    by_contra hshort
    rw [hasValidHeader_idle (Nat.lt_of_not_le hshort)] at h
    simp at h
  rw [hasValidHeader, if_pos hready] at h
  obtain ⟨⟨headerBytes, s'⟩, hreceive, hr⟩ := Option.map_eq_some_iff.1 h
  obtain ⟨rfl, hvalid⟩ : s' = t ∧ validateHeader headerBytes = some header := by simpa using hr
  refine ⟨headerBytes, hvalid, ?_⟩
  rw [hasValidHeaderBytes, if_pos hready, hreceive, Option.map_some]
  simp only [hvalid]

theorem hasValidHeader_whole {s : Tcp} (hready : headerSize ≤ s.available) :
    ∃ t header, hasValidHeader s headerSize = some (t, some header) := by
  have hreceive : s.receive headerSize headerSize =
      some (s.arrived.take headerSize, { s with arrived := s.arrived.drop headerSize }) := by
    rw [Tcp.receive, if_pos ⟨Nat.le_refl _, hready, Or.inl (by decide)⟩]
    simp
  have hread : hasValidHeader s headerSize =
      some ({ s with arrived := s.arrived.drop headerSize },
        validateHeader (s.arrived.take headerSize)) := by
    rw [hasValidHeader, if_pos hready, hreceive, Option.map_some]
  obtain ⟨-, -, -, -, header, hheader, -⟩ := hasValidHeader_ready hready hread
  rw [hheader] at hread
  exact ⟨_, header, hread⟩

/-- The readers agree exactly as long as there is no header to read. -/
theorem hasValidHeader_agree_iff (s : Tcp) : HeadersAgree s ↔ s.available < headerSize := by
  constructor
  · intro hagree
    by_contra hready
    obtain ⟨t, header, hread⟩ := hasValidHeader_whole (Nat.not_lt.1 hready)
    obtain ⟨headerBytes, -, hraw⟩ := hasValidHeaderBytes_ready hread
    have hverdict := (hagree headerSize _ _ hraw hread).verdict
    simp at hverdict
  · intro hshort count raw read hraw hread
    rw [hasValidHeaderBytes_idle hshort] at hraw
    rw [hasValidHeader_idle hshort] at hread
    obtain rfl := Option.some.inj hraw
    obtain rfl := Option.some.inj hread
    exact
      { consumed := rfl
        untouched := fun _ => rfl
        verdict := rfl
        found := by simpa using hshort
        decoded := fun header h => absurd h (by simp) }

/-- A ping is waiting. -/
theorem not_hasValidHeader_agree : ¬ ∀ s : Tcp, HeadersAgree s := by
  intro halways
  have hverdict := (halways ⟨(create 0 .ping .none 0).bytes, [], false⟩ headerSize _ _ rfl
    rfl).verdict
  exact absurd hverdict (by decide)

end NETConnect.SocketExtensions
