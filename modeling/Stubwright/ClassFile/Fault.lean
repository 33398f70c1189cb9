namespace Stubwright.ClassFile

inductive DescriptorFault where
  | truncated
  | missingOpening
  | unexpectedTag (tag : Char)
  | unterminatedReference
  /-- Text follows the return type of a whole descriptor. -/
  | surplus (descriptor : String)
deriving DecidableEq, Repr

def DescriptorFault.message : DescriptorFault → String
  | truncated => "truncated descriptor"
  | missingOpening => "expected '(' in descriptor"
  | unexpectedTag tag => s!"unexpected descriptor tag '{tag}'"
  | unterminatedReference => "unterminated reference descriptor"
  | surplus descriptor => descriptor

inductive Fault where
  | endOfFile
  | badMagic
  | unsupportedConstant (tag : Nat)
  | badIndex (index : Nat)
  | badText
  | badDescriptor (fault : DescriptorFault)
deriving DecidableEq, Repr

def Fault.message : Fault → String
  | endOfFile => "unexpected end of class file"
  | badMagic => "invalid class file magic header"
  | unsupportedConstant tag => s!"unsupported constant pool tag {tag}"
  | badIndex index => s!"invalid constant pool index {index}"
  | badText =>
      "invalid modified UTF-8 string in constant pool: could not convert CESU-8 data to UTF-8"
  | badDescriptor fault => s!"malformed descriptor: {fault.message}"

end Stubwright.ClassFile
