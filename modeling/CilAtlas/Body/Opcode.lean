import CilAtlas.Text.Basic

/-!
# Operation codes

An operation is named by one byte, or by the byte `0xFE` and a second one.  The
tables give the mnemonic of each and the kind of its operand.  A byte without
an entry is an operation of unknown meaning without operand.
-/

namespace CilAtlas
namespace Body

/-- What follows an operation code. -/
inductive OperandKind where
  | none
  | int8
  | int32
  | int64
  | float32
  | float64
  | token
  | string
  | argument8
  | argument16
  | local8
  | local16
  | shortBranch
  | branch
  | switch
deriving DecidableEq

/-- An operation: its mnemonic and the kind of its operand. -/
structure Opcode where
  mnemonic : Text
  operand : OperandKind

/-- The operations of one byte. -/
def oneByteOpcodes : List (UInt8 × String × OperandKind) :=
  [(0x00, "nop", .none), (0x01, "break", .none), (0x02, "ldarg.0", .none),
    (0x03, "ldarg.1", .none), (0x04, "ldarg.2", .none), (0x05, "ldarg.3", .none),
    (0x06, "ldloc.0", .none), (0x07, "ldloc.1", .none), (0x08, "ldloc.2", .none),
    (0x09, "ldloc.3", .none), (0x0A, "stloc.0", .none), (0x0B, "stloc.1", .none),
    (0x0C, "stloc.2", .none), (0x0D, "stloc.3", .none), (0x0E, "ldarg.s", .argument8),
    (0x0F, "ldarga.s", .argument8), (0x10, "starg.s", .argument8), (0x11, "ldloc.s", .local8),
    (0x12, "ldloca.s", .local8), (0x13, "stloc.s", .local8), (0x14, "ldnull", .none),
    (0x15, "ldc.i4.m1", .none), (0x16, "ldc.i4.0", .none), (0x17, "ldc.i4.1", .none),
    (0x18, "ldc.i4.2", .none), (0x19, "ldc.i4.3", .none), (0x1A, "ldc.i4.4", .none),
    (0x1B, "ldc.i4.5", .none), (0x1C, "ldc.i4.6", .none), (0x1D, "ldc.i4.7", .none),
    (0x1E, "ldc.i4.8", .none), (0x1F, "ldc.i4.s", .int8), (0x20, "ldc.i4", .int32),
    (0x21, "ldc.i8", .int64), (0x22, "ldc.r4", .float32), (0x23, "ldc.r8", .float64),
    (0x25, "dup", .none), (0x26, "pop", .none), (0x27, "jmp", .token), (0x28, "call", .token),
    (0x29, "calli", .token), (0x2A, "ret", .none), (0x2B, "br.s", .shortBranch),
    (0x2C, "brfalse.s", .shortBranch), (0x2D, "brtrue.s", .shortBranch),
    (0x2E, "beq.s", .shortBranch), (0x2F, "bge.s", .shortBranch), (0x30, "bgt.s", .shortBranch),
    (0x31, "ble.s", .shortBranch), (0x32, "blt.s", .shortBranch),
    (0x33, "bne.un.s", .shortBranch), (0x34, "bge.un.s", .shortBranch),
    (0x35, "bgt.un.s", .shortBranch), (0x36, "ble.un.s", .shortBranch),
    (0x37, "blt.un.s", .shortBranch), (0x38, "br", .branch), (0x39, "brfalse", .branch),
    (0x3A, "brtrue", .branch), (0x3B, "beq", .branch), (0x3C, "bge", .branch),
    (0x3D, "bgt", .branch), (0x3E, "ble", .branch), (0x3F, "blt", .branch),
    (0x40, "bne.un", .branch), (0x41, "bge.un", .branch), (0x42, "bgt.un", .branch),
    (0x43, "ble.un", .branch), (0x44, "blt.un", .branch), (0x45, "switch", .switch),
    (0x46, "ldind.i1", .none), (0x47, "ldind.u1", .none), (0x48, "ldind.i2", .none),
    (0x49, "ldind.u2", .none), (0x4A, "ldind.i4", .none), (0x4B, "ldind.u4", .none),
    (0x4C, "ldind.i8", .none), (0x4D, "ldind.i", .none), (0x4E, "ldind.r4", .none),
    (0x4F, "ldind.r8", .none), (0x50, "ldind.ref", .none), (0x51, "stind.ref", .none),
    (0x52, "stind.i1", .none), (0x53, "stind.i2", .none), (0x54, "stind.i4", .none),
    (0x55, "stind.i8", .none), (0x56, "stind.r4", .none), (0x57, "stind.r8", .none),
    (0x58, "add", .none), (0x59, "sub", .none), (0x5A, "mul", .none), (0x5B, "div", .none),
    (0x5C, "div.un", .none), (0x5D, "rem", .none), (0x5E, "rem.un", .none), (0x5F, "and", .none),
    (0x60, "or", .none), (0x61, "xor", .none), (0x62, "shl", .none), (0x63, "shr", .none),
    (0x64, "shr.un", .none), (0x65, "neg", .none), (0x66, "not", .none), (0x67, "conv.i1", .none),
    (0x68, "conv.i2", .none), (0x69, "conv.i4", .none), (0x6A, "conv.i8", .none),
    (0x6B, "conv.r4", .none), (0x6C, "conv.r8", .none), (0x6D, "conv.u4", .none),
    (0x6E, "conv.u8", .none), (0x6F, "callvirt", .token), (0x70, "cpobj", .token),
    (0x71, "ldobj", .token), (0x72, "ldstr", .string), (0x73, "newobj", .token),
    (0x74, "castclass", .token), (0x75, "isinst", .token), (0x76, "conv.r.un", .none),
    (0x79, "unbox", .token), (0x7A, "throw", .none), (0x7B, "ldfld", .token),
    (0x7C, "ldflda", .token), (0x7D, "stfld", .token), (0x7E, "ldsfld", .token),
    (0x7F, "ldsflda", .token), (0x80, "stsfld", .token), (0x81, "stobj", .token),
    (0x82, "conv.ovf.i1.un", .none), (0x83, "conv.ovf.i2.un", .none),
    (0x84, "conv.ovf.i4.un", .none), (0x85, "conv.ovf.i8.un", .none),
    (0x86, "conv.ovf.u1.un", .none), (0x87, "conv.ovf.u2.un", .none),
    (0x88, "conv.ovf.u4.un", .none), (0x89, "conv.ovf.u8.un", .none),
    (0x8A, "conv.ovf.i.un", .none), (0x8B, "conv.ovf.u.un", .none), (0x8C, "box", .token),
    (0x8D, "newarr", .token), (0x8E, "ldlen", .none), (0x8F, "ldelema", .token),
    (0x90, "ldelem.i1", .none), (0x91, "ldelem.u1", .none), (0x92, "ldelem.i2", .none),
    (0x93, "ldelem.u2", .none), (0x94, "ldelem.i4", .none), (0x95, "ldelem.u4", .none),
    (0x96, "ldelem.i8", .none), (0x97, "ldelem.i", .none), (0x98, "ldelem.r4", .none),
    (0x99, "ldelem.r8", .none), (0x9A, "ldelem.ref", .none), (0x9B, "stelem.i", .none),
    (0x9C, "stelem.i1", .none), (0x9D, "stelem.i2", .none), (0x9E, "stelem.i4", .none),
    (0x9F, "stelem.i8", .none), (0xA0, "stelem.r4", .none), (0xA1, "stelem.r8", .none),
    (0xA2, "stelem.ref", .none), (0xA3, "ldelem", .token), (0xA4, "stelem", .token),
    (0xA5, "unbox.any", .token), (0xB3, "conv.ovf.i1", .none), (0xB4, "conv.ovf.u1", .none),
    (0xB5, "conv.ovf.i2", .none), (0xB6, "conv.ovf.u2", .none), (0xB7, "conv.ovf.i4", .none),
    (0xB8, "conv.ovf.u4", .none), (0xB9, "conv.ovf.i8", .none), (0xBA, "conv.ovf.u8", .none),
    (0xC2, "refanyval", .token), (0xC3, "ckfinite", .none), (0xC6, "mkrefany", .token),
    (0xD0, "ldtoken", .token), (0xD1, "conv.u2", .none), (0xD2, "conv.u1", .none),
    (0xD3, "conv.i", .none), (0xD4, "conv.ovf.i", .none), (0xD5, "conv.ovf.u", .none),
    (0xD6, "add.ovf", .none), (0xD7, "add.ovf.un", .none), (0xD8, "mul.ovf", .none),
    (0xD9, "mul.ovf.un", .none), (0xDA, "sub.ovf", .none), (0xDB, "sub.ovf.un", .none),
    (0xDC, "endfinally", .none), (0xDD, "leave", .branch), (0xDE, "leave.s", .shortBranch),
    (0xDF, "stind.i", .none), (0xE0, "conv.u", .none), (0xF8, "prefix7", .none),
    (0xF9, "prefix6", .none), (0xFA, "prefix5", .none), (0xFB, "prefix4", .none),
    (0xFC, "prefix3", .none), (0xFD, "prefix2", .none), (0xFE, "prefix1", .none),
    (0xFF, "prefixref", .none)]

/-- The operations of `0xFE` and a second byte. -/
def twoByteOpcodes : List (UInt8 × String × OperandKind) :=
  [(0x00, "arglist", .none), (0x01, "ceq", .none), (0x02, "cgt", .none), (0x03, "cgt.un", .none),
    (0x04, "clt", .none), (0x05, "clt.un", .none), (0x06, "ldftn", .token),
    (0x07, "ldvirtftn", .token), (0x09, "ldarg", .argument16), (0x0A, "ldarga", .argument16),
    (0x0B, "starg", .argument16), (0x0C, "ldloc", .local16), (0x0D, "ldloca", .local16),
    (0x0E, "stloc", .local16), (0x0F, "localloc", .none), (0x11, "endfilter", .none),
    (0x12, "unaligned.", .int8), (0x13, "volatile.", .none), (0x14, "tail.", .none),
    (0x15, "initobj", .token), (0x16, "constrained.", .token), (0x17, "cpblk", .none),
    (0x18, "initblk", .none), (0x19, "no.", .int8), (0x1A, "rethrow", .none),
    (0x1C, "sizeof", .token), (0x1D, "refanytype", .none), (0x1E, "readonly.", .none)]

/-- The byte that announces a second one. -/
def escapeByte : UInt8 := 0xFE

/-- The entry of a byte in a table. -/
def findOpcode (table : List (UInt8 × String × OperandKind)) (unknown : String) (b : UInt8) :
    Opcode :=
  match table.find? (·.1 = b) with
  | some (_, mnemonic, operand) => ⟨lit mnemonic, operand⟩
  | .none => ⟨lit unknown, .none⟩

/-- The operation of one byte. -/
def Opcode.ofByte (b : UInt8) : Opcode :=
  findOpcode oneByteOpcodes "UNKNOWN1" b

/-- The operation of `0xFE` and this byte. -/
def Opcode.ofEscapedByte (b : UInt8) : Opcode :=
  findOpcode twoByteOpcodes "UNKNOWN2" b

end Body
end CilAtlas
