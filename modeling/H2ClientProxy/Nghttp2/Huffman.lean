import H2ClientProxy.Util

/-!
# The Huffman code of header strings: `nghttp2_hd_huffman.c`

Strings are encoded byte by byte with the codes of `huff_sym_table`, and the last byte is filled up with the
first bits of the code for the end of the string.  They are decoded by an automaton that reads four bits in
a step.

* Of an `nghttp2_bufs` there are the bytes that have been written to it and how many fit; the encoder does
  not run out of space.
-/

namespace H2ClientProxy.Nghttp2

/-- `huff_sym_table`: the number of bits and the code of each byte, and of the end of a string (256). -/
def huffSymTable : List (ℕ × ℕ) :=
  [(13, 0x1ff8), (23, 0x7fffd8), (28, 0xfffffe2), (28, 0xfffffe3), (28, 0xfffffe4), (28, 0xfffffe5),
   (28, 0xfffffe6), (28, 0xfffffe7), (28, 0xfffffe8), (24, 0xffffea), (30, 0x3ffffffc),
   (28, 0xfffffe9), (28, 0xfffffea), (30, 0x3ffffffd), (28, 0xfffffeb), (28, 0xfffffec),
   (28, 0xfffffed), (28, 0xfffffee), (28, 0xfffffef), (28, 0xffffff0), (28, 0xffffff1),
   (28, 0xffffff2), (30, 0x3ffffffe), (28, 0xffffff3), (28, 0xffffff4), (28, 0xffffff5),
   (28, 0xffffff6), (28, 0xffffff7), (28, 0xffffff8), (28, 0xffffff9), (28, 0xffffffa),
   (28, 0xffffffb), (6, 0x14), (10, 0x3f8), (10, 0x3f9), (12, 0xffa), (13, 0x1ff9), (6, 0x15),
   (8, 0xf8), (11, 0x7fa), (10, 0x3fa), (10, 0x3fb), (8, 0xf9), (11, 0x7fb), (8, 0xfa), (6, 0x16),
   (6, 0x17), (6, 0x18), (5, 0x0), (5, 0x1), (5, 0x2), (6, 0x19), (6, 0x1a), (6, 0x1b), (6, 0x1c),
   (6, 0x1d), (6, 0x1e), (6, 0x1f), (7, 0x5c), (8, 0xfb), (15, 0x7ffc), (6, 0x20), (12, 0xffb),
   (10, 0x3fc), (13, 0x1ffa), (6, 0x21), (7, 0x5d), (7, 0x5e), (7, 0x5f), (7, 0x60), (7, 0x61),
   (7, 0x62), (7, 0x63), (7, 0x64), (7, 0x65), (7, 0x66), (7, 0x67), (7, 0x68), (7, 0x69),
   (7, 0x6a), (7, 0x6b), (7, 0x6c), (7, 0x6d), (7, 0x6e), (7, 0x6f), (7, 0x70), (7, 0x71),
   (7, 0x72), (8, 0xfc), (7, 0x73), (8, 0xfd), (13, 0x1ffb), (19, 0x7fff0), (13, 0x1ffc),
   (14, 0x3ffc), (6, 0x22), (15, 0x7ffd), (5, 0x3), (6, 0x23), (5, 0x4), (6, 0x24), (5, 0x5),
   (6, 0x25), (6, 0x26), (6, 0x27), (5, 0x6), (7, 0x74), (7, 0x75), (6, 0x28), (6, 0x29), (6, 0x2a),
   (5, 0x7), (6, 0x2b), (7, 0x76), (6, 0x2c), (5, 0x8), (5, 0x9), (6, 0x2d), (7, 0x77), (7, 0x78),
   (7, 0x79), (7, 0x7a), (7, 0x7b), (15, 0x7ffe), (11, 0x7fc), (14, 0x3ffd), (13, 0x1ffd),
   (28, 0xffffffc), (20, 0xfffe6), (22, 0x3fffd2), (20, 0xfffe7), (20, 0xfffe8), (22, 0x3fffd3),
   (22, 0x3fffd4), (22, 0x3fffd5), (23, 0x7fffd9), (22, 0x3fffd6), (23, 0x7fffda), (23, 0x7fffdb),
   (23, 0x7fffdc), (23, 0x7fffdd), (23, 0x7fffde), (24, 0xffffeb), (23, 0x7fffdf), (24, 0xffffec),
   (24, 0xffffed), (22, 0x3fffd7), (23, 0x7fffe0), (24, 0xffffee), (23, 0x7fffe1), (23, 0x7fffe2),
   (23, 0x7fffe3), (23, 0x7fffe4), (21, 0x1fffdc), (22, 0x3fffd8), (23, 0x7fffe5), (22, 0x3fffd9),
   (23, 0x7fffe6), (23, 0x7fffe7), (24, 0xffffef), (22, 0x3fffda), (21, 0x1fffdd), (20, 0xfffe9),
   (22, 0x3fffdb), (22, 0x3fffdc), (23, 0x7fffe8), (23, 0x7fffe9), (21, 0x1fffde), (23, 0x7fffea),
   (22, 0x3fffdd), (22, 0x3fffde), (24, 0xfffff0), (21, 0x1fffdf), (22, 0x3fffdf), (23, 0x7fffeb),
   (23, 0x7fffec), (21, 0x1fffe0), (21, 0x1fffe1), (22, 0x3fffe0), (21, 0x1fffe2), (23, 0x7fffed),
   (22, 0x3fffe1), (23, 0x7fffee), (23, 0x7fffef), (20, 0xfffea), (22, 0x3fffe2), (22, 0x3fffe3),
   (22, 0x3fffe4), (23, 0x7ffff0), (22, 0x3fffe5), (22, 0x3fffe6), (23, 0x7ffff1), (26, 0x3ffffe0),
   (26, 0x3ffffe1), (20, 0xfffeb), (19, 0x7fff1), (22, 0x3fffe7), (23, 0x7ffff2), (22, 0x3fffe8),
   (25, 0x1ffffec), (26, 0x3ffffe2), (26, 0x3ffffe3), (26, 0x3ffffe4), (27, 0x7ffffde),
   (27, 0x7ffffdf), (26, 0x3ffffe5), (24, 0xfffff1), (25, 0x1ffffed), (19, 0x7fff2), (21, 0x1fffe3),
   (26, 0x3ffffe6), (27, 0x7ffffe0), (27, 0x7ffffe1), (26, 0x3ffffe7), (27, 0x7ffffe2),
   (24, 0xfffff2), (21, 0x1fffe4), (21, 0x1fffe5), (26, 0x3ffffe8), (26, 0x3ffffe9),
   (28, 0xffffffd), (27, 0x7ffffe3), (27, 0x7ffffe4), (27, 0x7ffffe5), (20, 0xfffec),
   (24, 0xfffff3), (20, 0xfffed), (21, 0x1fffe6), (22, 0x3fffe9), (21, 0x1fffe7), (21, 0x1fffe8),
   (23, 0x7ffff3), (22, 0x3fffea), (22, 0x3fffeb), (25, 0x1ffffee), (25, 0x1ffffef), (24, 0xfffff4),
   (24, 0xfffff5), (26, 0x3ffffea), (23, 0x7ffff4), (26, 0x3ffffeb), (27, 0x7ffffe6),
   (26, 0x3ffffec), (26, 0x3ffffed), (27, 0x7ffffe7), (27, 0x7ffffe8), (27, 0x7ffffe9),
   (27, 0x7ffffea), (27, 0x7ffffeb), (28, 0xffffffe), (27, 0x7ffffec), (27, 0x7ffffed),
   (27, 0x7ffffee), (27, 0x7ffffef), (27, 0x7fffff0), (26, 0x3ffffee), (30, 0x3fffffff)]

/-- `huff_decode_table`.  A row has the entries of one state, for the sixteen blocks of four bits from the
first one to the last; of an entry there are the state, the flags and the symbol, with two digits each. -/
def huffDecodeTable : List ℕ :=
  [0x0400000500000700000800000b00000c00001000001300001900001c00002000002300002a0000310000390000400100,
   0x00033000033100033200036100036300036500036900036f0003730003740d00000e0000110000120000140000150000,
   0x01023016033001023116033101023216033201026116036101026316036301026516036501026916036901026f16036f,
   0x020230090230170230280330020231090231170231280331020232090232170232280332020261090261170261280361,
   0x0302300602300a02300f02301802301f02302902303803300302310602310a02310f02311802311f0231290231380331,
   0x0302320602320a02320f02321802321f02322902323803320302610602610a02610f02611802611f0261290261380361,
   0x02026309026317026328036302026509026517026528036502026909026917026928036902026f09026f17026f28036f,
   0x0302630602630a02630f02631802631f02632902633803630302650602650a02650f02651802651f0265290265380365,
   0x0302690602690a02690f02691802691f026929026938036903026f06026f0a026f0f026f18026f1f026f29026f38036f,
   0x01027316037301027416037400032000032500032d00032e00032f000333000334000335000336000337000338000339,
   0x02027309027317027328037302027409027417027428037401022016032001022516032501022d16032d01022e16032e,
   0x0302730602730a02730f02731802731f02732902733803730302740602740a02740f02741802741f0274290274380374,
   0x02022009022017022028032002022509022517022528032502022d09022d17022d28032d02022e09022e17022e28032e,
   0x0302200602200a02200f02201802201f02202902203803200302250602250a02250f02251802251f0225290225380325,
   0x03022d06022d0a022d0f022d18022d1f022d29022d38032d03022e06022e0a022e0f022e18022e1f022e29022e38032e,
   0x01022f16032f010233160333010234160334010235160335010236160336010237160337010238160338010239160339,
   0x02022f09022f17022f28032f020233090233170233280333020234090234170234280334020235090235170235280335,
   0x03022f06022f0a022f0f022f18022f1f022f29022f38032f0302330602330a02330f02331802331f0233290233380333,
   0x0302340602340a02340f02341802341f02342902343803340302350602350a02350f02351802351f0235290235380335,
   0x020236090236170236280336020237090237170237280337020238090238170238280338020239090239170239280339,
   0x0302360602360a02360f02361802361f02362902363803360302370602370a02370f02371802371f0237290237380337,
   0x0302380602380a02380f02381802381f02382902383803380302390602390a02390f02391802391f0239290239380339,
   0x1a00001b00001d00001e00002100002200002400002500002b00002e00003200003500003a00003d0000410000440100,
   0x00033d00034100035f00036200036400036600036700036800036c00036d00036e000370000372000375260000270000,
   0x01023d16033d01024116034101025f16035f010262160362010264160364010266160366010267160367010268160368,
   0x02023d09023d17023d28033d02024109024117024128034102025f09025f17025f28035f020262090262170262280362,
   0x03023d06023d0a023d0f023d18023d1f023d29023d38033d0302410602410a02410f02411802411f0241290241380341,
   0x03025f06025f0a025f0f025f18025f1f025f29025f38035f0302620602620a02620f02621802621f0262290262380362,
   0x020264090264170264280364020266090266170266280366020267090267170267280367020268090268170268280368,
   0x0302640602640a02640f02641802641f02642902643803640302660602660a02660f02661802661f0266290266380366,
   0x0302670602670a02670f02671802671f02672902673803670302680602680a02680f02681802681f0268290268380368,
   0x01026c16036c01026d16036d01026e16036e01027016037001027216037201027516037500033a000342000343000344,
   0x02026c09026c17026c28036c02026d09026d17026d28036d02026e09026e17026e28036e020270090270170270280370,
   0x03026c06026c0a026c0f026c18026c1f026c29026c38036c03026d06026d0a026d0f026d18026d1f026d29026d38036d,
   0x03026e06026e0a026e0f026e18026e1f026e29026e38036e0302700602700a02700f02701802701f0270290270380370,
   0x02027209027217027228037202027509027517027528037501023a16033a010242160342010243160343010244160344,
   0x0302720602720a02720f02721802721f02722902723803720302750602750a02750f02751802751f0275290275380375,
   0x02023a09023a17023a28033a020242090242170242280342020243090243170243280343020244090244170244280344,
   0x03023a06023a0a023a0f023a18023a1f023a29023a38033a0302420602420a02420f02421802421f0242290242380342,
   0x0302430602430a02430f02431802431f02432902433803430302440602440a02440f02441802441f0244290244380344,
   0x2c00002d00002f00003000003300003400003600003700003b00003c00003e00003f0000420000430000450000480100,
   0x00034500034600034700034800034900034a00034b00034c00034d00034e00034f000350000351000352000353000354,
   0x01024516034501024616034601024716034701024816034801024916034901024a16034a01024b16034b01024c16034c,
   0x020245090245170245280345020246090246170246280346020247090247170247280347020248090248170248280348,
   0x0302450602450a02450f02451802451f02452902453803450302460602460a02460f02461802461f0246290246380346,
   0x0302470602470a02470f02471802471f02472902473803470302480602480a02480f02481802481f0248290248380348,
   0x02024909024917024928034902024a09024a17024a28034a02024b09024b17024b28034b02024c09024c17024c28034c,
   0x0302490602490a02490f02491802491f024929024938034903024a06024a0a024a0f024a18024a1f024a29024a38034a,
   0x03024b06024b0a024b0f024b18024b1f024b29024b38034b03024c06024c0a024c0f024c18024c1f024c29024c38034c,
   0x01024d16034d01024e16034e01024f16034f010250160350010251160351010252160352010253160353010254160354,
   0x02024d09024d17024d28034d02024e09024e17024e28034e02024f09024f17024f28034f020250090250170250280350,
   0x03024d06024d0a024d0f024d18024d1f024d29024d38034d03024e06024e0a024e0f024e18024e1f024e29024e38034e,
   0x03024f06024f0a024f0f024f18024f1f024f29024f38034f0302500602500a02500f02501802501f0250290250380350,
   0x020251090251170251280351020252090252170252280352020253090253170253280353020254090254170254280354,
   0x0302510602510a02510f02511802511f02512902513803510302520602520a02520f02521802521f0252290252380352,
   0x0302530602530a02530f02531802531f02532902533803530302540602540a02540f02541802541f0254290254380354,
   0x00035500035600035700035900036a00036b00037100037600037700037800037900037a4600004700004900004a0100,
   0x01025516035501025616035601025716035701025916035901026a16036a01026b16036b010271160371010276160376,
   0x020255090255170255280355020256090256170256280356020257090257170257280357020259090259170259280359,
   0x0302550602550a02550f02551802551f02552902553803550302560602560a02560f02561802561f0256290256380356,
   0x0302570602570a02570f02571802571f02572902573803570302590602590a02590f02591802591f0259290259380359,
   0x02026a09026a17026a28036a02026b09026b17026b28036b020271090271170271280371020276090276170276280376,
   0x03026a06026a0a026a0f026a18026a1f026a29026a38036a03026b06026b0a026b0f026b18026b1f026b29026b38036b,
   0x0302710602710a02710f02711802711f02712902713803710302760602760a02760f02761802761f0276290276380376,
   0x01027716037701027816037801027916037901027a16037a00032600032a00032c00033b00035800035a4b00004e0000,
   0x02027709027717027728037702027809027817027828037802027909027917027928037902027a09027a17027a28037a,
   0x0302770602770a02770f02771802771f02772902773803770302780602780a02780f02781802781f0278290278380378,
   0x0302790602790a02790f02791802791f027929027938037903027a06027a0a027a0f027a18027a1f027a29027a38037a,
   0x01022616032601022a16032a01022c16032c01023b16033b01025816035801025a16035a4c00004d00004f0000510000,
   0x02022609022617022628032602022a09022a17022a28032a02022c09022c17022c28032c02023b09023b17023b28033b,
   0x0302260602260a02260f02261802261f022629022638032603022a06022a0a022a0f022a18022a1f022a29022a38032a,
   0x03022c06022c0a022c0f022c18022c1f022c29022c38032c03023b06023b0a023b0f023b18023b1f023b29023b38033b,
   0x02025809025817025828035802025a09025a17025a28035a00032100032200032800032900033f500000520000540000,
   0x0302580602580a02580f02581802581f025829025838035803025a06025a0a025a0f025a18025a1f025a29025a38035a,
   0x01022116032101022216032201022816032801022916032901023f16033f00032700032b00037c530000550000580000,
   0x020221090221170221280321020222090222170222280322020228090228170228280328020229090229170229280329,
   0x0302210602210a02210f02211802211f02212902213803210302220602220a02220f02221802221f0222290222380322,
   0x0302280602280a02280f02281802281f02282902283803280302290602290a02290f02291802291f0229290229380329,
   0x02023f09023f17023f28033f01022716032701022b16032b01027c16037c00032300033e5600005700005900005a0000,
   0x03023f06023f0a023f0f023f18023f1f023f29023f38033f02022709022717022728032702022b09022b17022b28032b,
   0x0302270602270a02270f02271802271f022729022738032703022b06022b0a022b0f022b18022b1f022b29022b38032b,
   0x02027c09027c17027c28037c01022316032301023e16033e00030000032400034000035b00035d00037e5b00005c0000,
   0x03027c06027c0a027c0f027c18027c1f027c29027c38037c02022309022317022328032302023e09023e17023e28033e,
   0x0302230602230a02230f02231802231f022329022338032303023e06023e0a023e0f023e18023e1f023e29023e38033e,
   0x01020016030001022416032401024016034001025b16035b01025d16035d01027e16037e00035e00037d5d00005e0000,
   0x02020009020017020028030002022409022417022428032402024009024017024028034002025b09025b17025b28035b,
   0x0302000602000a02000f02001802001f02002902003803000302240602240a02240f02241802241f0224290224380324,
   0x0302400602400a02400f02401802401f024029024038034003025b06025b0a025b0f025b18025b1f025b29025b38035b,
   0x02025d09025d17025d28035d02027e09027e17027e28037e01025e16035e01027d16037d00033c00036000037b5f0000,
   0x03025d06025d0a025d0f025d18025d1f025d29025d38035d03027e06027e0a027e0f027e18027e1f027e29027e38037e,
   0x02025e09025e17025e28035e02027d09027d17027d28037d01023c16033c01026016036001027b16037b6000006e0000,
   0x03025e06025e0a025e0f025e18025e1f025e29025e38035e03027d06027d0a027d0f027d18027d1f027d29027d38037d,
   0x02023c09023c17023c28033c02026009026017026028036002027b09027b17027b28037b6100006500006f0000850000,
   0x03023c06023c0a023c0f023c18023c1f023c29023c38033c0302600602600a02600f02601802601f0260290260380360,
   0x03027b06027b0a027b0f027b18027b1f027b29027b38037b620000630000660000690000700000770000860000990000,
   0x00035c0003c30003d06400006700006800006a00006b00007100007400007800007e00008700008e00009a0000a90000,
   0x01025c16035c0102c31603c30102d01603d00003800003820003830003a20003b80003c20003e00003e26c00006d0000,
   0x02025c09025c17025c28035c0202c30902c31702c32803c30202d00902d01702d02803d0010280160380010282160382,
   0x03025c06025c0a025c0f025c18025c1f025c29025c38035c0302c30602c30a02c30f02c31802c31f02c32902c33803c3,
   0x0302d00602d00a02d00f02d01802d01f02d02902d03803d0020280090280170280280380020282090282170282280382,
   0x0302800602800a02800f02801802801f02802902803803800302820602820a02820f02821802821f0282290282380382,
   0x0102831603830102a21603a20102b81603b80102c21603c20102e01603e00102e21603e20003990003a10003a70003ac,
   0x0202830902831702832803830202a20902a21702a22803a20202b80902b81702b82803b80202c20902c21702c22803c2,
   0x0302830602830a02830f02831802831f02832902833803830302a20602a20a02a20f02a21802a21f02a22902a23803a2,
   0x0302b80602b80a02b80f02b81802b81f02b82902b83803b80302c20602c20a02c20f02c21802c21f02c22902c23803c2,
   0x0202e00902e01702e02803e00202e20902e21702e22803e20102991603990102a11603a10102a71603a70102ac1603ac,
   0x0302e00602e00a02e00f02e01802e01f02e02902e03803e00302e20602e20a02e20f02e21802e21f02e22902e23803e2,
   0x0202990902991702992803990202a10902a11702a12803a10202a70902a71702a72803a70202ac0902ac1702ac2803ac,
   0x0302990602990a02990f02991802991f02992902993803990302a10602a10a02a10f02a11802a11f02a12902a13803a1,
   0x0302a70602a70a02a70f02a71802a71f02a72902a73803a70302ac0602ac0a02ac0f02ac1802ac1f02ac2902ac3803ac,
   0x7200007300007500007600007900007b00007f00008200008800008b00008f00009200009b0000a20000aa0000b40000,
   0x0003b00003b10003b30003d10003d80003d90003e30003e50003e67a00007c00007d0000800000810000830000840000,
   0x0102b01603b00102b11603b10102b31603b30102d11603d10102d81603d80102d91603d90102e31603e30102e51603e5,
   0x0202b00902b01702b02803b00202b10902b11702b12803b10202b30902b31702b32803b30202d10902d11702d12803d1,
   0x0302b00602b00a02b00f02b01802b01f02b02902b03803b00302b10602b10a02b10f02b11802b11f02b12902b13803b1,
   0x0302b30602b30a02b30f02b31802b31f02b32902b33803b30302d10602d10a02d10f02d11802d11f02d12902d13803d1,
   0x0202d80902d81702d82803d80202d90902d91702d92803d90202e30902e31702e32803e30202e50902e51702e52803e5,
   0x0302d80602d80a02d80f02d81802d81f02d82902d83803d80302d90602d90a02d90f02d91802d91f02d92902d93803d9,
   0x0302e30602e30a02e30f02e31802e31f02e32902e33803e30302e50602e50a02e50f02e51802e51f02e52902e53803e5,
   0x0102e61603e600038100038400038500038600038800039200039a00039c0003a00003a30003a40003a90003aa0003ad,
   0x0202e60902e61702e62803e6010281160381010284160384010285160385010286160386010288160388010292160392,
   0x0302e60602e60a02e60f02e61802e61f02e62902e63803e6020281090281170281280381020284090284170284280384,
   0x0302810602810a02810f02811802811f02812902813803810302840602840a02840f02841802841f0284290284380384,
   0x020285090285170285280385020286090286170286280386020288090288170288280388020292090292170292280392,
   0x0302850602850a02850f02851802851f02852902853803850302860602860a02860f02861802861f0286290286380386,
   0x0302880602880a02880f02881802881f02882902883803880302920602920a02920f02921802921f0292290292380392,
   0x01029a16039a01029c16039c0102a01603a00102a31603a30102a41603a40102a91603a90102aa1603aa0102ad1603ad,
   0x02029a09029a17029a28039a02029c09029c17029c28039c0202a00902a01702a02803a00202a30902a31702a32803a3,
   0x03029a06029a0a029a0f029a18029a1f029a29029a38039a03029c06029c0a029c0f029c18029c1f029c29029c38039c,
   0x0302a00602a00a02a00f02a01802a01f02a02902a03803a00302a30602a30a02a30f02a31802a31f02a32902a33803a3,
   0x0202a40902a41702a42803a40202a90902a91702a92803a90202aa0902aa1702aa2803aa0202ad0902ad1702ad2803ad,
   0x0302a40602a40a02a40f02a41802a41f02a42902a43803a40302a90602a90a02a90f02a91802a91f02a92902a93803a9,
   0x0302aa0602aa0a02aa0f02aa1802aa1f02aa2902aa3803aa0302ad0602ad0a02ad0f02ad1802ad1f02ad2902ad3803ad,
   0x8900008a00008c00008d00009000009100009300009600009c00009f0000a30000a60000ab0000ae0000b50000be0000,
   0x0003b20003b50003b90003ba0003bb0003bd0003be0003c40003c60003e40003e80003e9940000950000970000980000,
   0x0102b21603b20102b51603b50102b91603b90102ba1603ba0102bb1603bb0102bd1603bd0102be1603be0102c41603c4,
   0x0202b20902b21702b22803b20202b50902b51702b52803b50202b90902b91702b92803b90202ba0902ba1702ba2803ba,
   0x0302b20602b20a02b20f02b21802b21f02b22902b23803b20302b50602b50a02b50f02b51802b51f02b52902b53803b5,
   0x0302b90602b90a02b90f02b91802b91f02b92902b93803b90302ba0602ba0a02ba0f02ba1802ba1f02ba2902ba3803ba,
   0x0202bb0902bb1702bb2803bb0202bd0902bd1702bd2803bd0202be0902be1702be2803be0202c40902c41702c42803c4,
   0x0302bb0602bb0a02bb0f02bb1802bb1f02bb2902bb3803bb0302bd0602bd0a02bd0f02bd1802bd1f02bd2902bd3803bd,
   0x0302be0602be0a02be0f02be1802be1f02be2902be3803be0302c40602c40a02c40f02c41802c41f02c42902c43803c4,
   0x0102c61603c60102e41603e40102e81603e80102e91603e900030100038700038900038a00038b00038c00038d00038f,
   0x0202c60902c61702c62803c60202e40902e41702e42803e40202e80902e81702e82803e80202e90902e91702e92803e9,
   0x0302c60602c60a02c60f02c61802c61f02c62902c63803c60302e40602e40a02e40f02e41802e41f02e42902e43803e4,
   0x0302e80602e80a02e80f02e81802e81f02e82902e83803e80302e90602e90a02e90f02e91802e91f02e92902e93803e9,
   0x01020116030101028716038701028916038901028a16038a01028b16038b01028c16038c01028d16038d01028f16038f,
   0x02020109020117020128030102028709028717028728038702028909028917028928038902028a09028a17028a28038a,
   0x0302010602010a02010f02011802011f02012902013803010302870602870a02870f02871802871f0287290287380387,
   0x0302890602890a02890f02891802891f028929028938038903028a06028a0a028a0f028a18028a1f028a29028a38038a,
   0x02028b09028b17028b28038b02028c09028c17028c28038c02028d09028d17028d28038d02028f09028f17028f28038f,
   0x03028b06028b0a028b0f028b18028b1f028b29028b38038b03028c06028c0a028c0f028c18028c1f028c29028c38038c,
   0x03028d06028d0a028d0f028d18028d1f028d29028d38038d03028f06028f0a028f0f028f18028f1f028f29028f38038f,
   0x9d00009e0000a00000a10000a40000a50000a70000a80000ac0000ad0000af0000b10000b60000b90000bf0000cf0000,
   0x00039300039500039600039700039800039b00039d00039e0003a50003a60003a80003ae0003af0003b40003b60003b7,
   0x01029316039301029516039501029616039601029716039701029816039801029b16039b01029d16039d01029e16039e,
   0x020293090293170293280393020295090295170295280395020296090296170296280396020297090297170297280397,
   0x0302930602930a02930f02931802931f02932902933803930302950602950a02950f02951802951f0295290295380395,
   0x0302960602960a02960f02961802961f02962902963803960302970602970a02970f02971802971f0297290297380397,
   0x02029809029817029828039802029b09029b17029b28039b02029d09029d17029d28039d02029e09029e17029e28039e,
   0x0302980602980a02980f02981802981f029829029838039803029b06029b0a029b0f029b18029b1f029b29029b38039b,
   0x03029d06029d0a029d0f029d18029d1f029d29029d38039d03029e06029e0a029e0f029e18029e1f029e29029e38039e,
   0x0102a51603a50102a61603a60102a81603a80102ae1603ae0102af1603af0102b41603b40102b61603b60102b71603b7,
   0x0202a50902a51702a52803a50202a60902a61702a62803a60202a80902a81702a82803a80202ae0902ae1702ae2803ae,
   0x0302a50602a50a02a50f02a51802a51f02a52902a53803a50302a60602a60a02a60f02a61802a61f02a62902a63803a6,
   0x0302a80602a80a02a80f02a81802a81f02a82902a83803a80302ae0602ae0a02ae0f02ae1802ae1f02ae2902ae3803ae,
   0x0202af0902af1702af2803af0202b40902b41702b42803b40202b60902b61702b62803b60202b70902b71702b72803b7,
   0x0302af0602af0a02af0f02af1802af1f02af2902af3803af0302b40602b40a02b40f02b41802b41f02b42902b43803b4,
   0x0302b60602b60a02b60f02b61802b61f02b62902b63803b60302b70602b70a02b70f02b71802b71f02b72902b73803b7,
   0x0003bc0003bf0003c50003e70003efb00000b20000b30000b70000b80000ba0000bb0000c00000c70000d00000df0000,
   0x0102bc1603bc0102bf1603bf0102c51603c50102e71603e70102ef1603ef00030900038e00039000039100039400039f,
   0x0202bc0902bc1702bc2803bc0202bf0902bf1702bf2803bf0202c50902c51702c52803c50202e70902e71702e72803e7,
   0x0302bc0602bc0a02bc0f02bc1802bc1f02bc2902bc3803bc0302bf0602bf0a02bf0f02bf1802bf1f02bf2902bf3803bf,
   0x0302c50602c50a02c50f02c51802c51f02c52902c53803c50302e70602e70a02e70f02e71802e71f02e72902e73803e7,
   0x0202ef0902ef1702ef2803ef01020916030901028e16038e01029016039001029116039101029416039401029f16039f,
   0x0302ef0602ef0a02ef0f02ef1802ef1f02ef2902ef3803ef02020909020917020928030902028e09028e17028e28038e,
   0x0302090602090a02090f02091802091f020929020938030903028e06028e0a028e0f028e18028e1f028e29028e38038e,
   0x02029009029017029028039002029109029117029128039102029409029417029428039402029f09029f17029f28039f,
   0x0302900602900a02900f02901802901f02902902903803900302910602910a02910f02911802911f0291290291380391,
   0x0302940602940a02940f02941802941f029429029438039403029f06029f0a029f0f029f18029f1f029f29029f38039f,
   0x0003ab0003ce0003d70003e10003ec0003edbc0000bd0000c10000c40000c80000cb0000d10000d80000e00000ee0000,
   0x0102ab1603ab0102ce1603ce0102d71603d70102e11603e10102ec1603ec0102ed1603ed0003c70003cf0003ea0003eb,
   0x0202ab0902ab1702ab2803ab0202ce0902ce1702ce2803ce0202d70902d71702d72803d70202e10902e11702e12803e1,
   0x0302ab0602ab0a02ab0f02ab1802ab1f02ab2902ab3803ab0302ce0602ce0a02ce0f02ce1802ce1f02ce2902ce3803ce,
   0x0302d70602d70a02d70f02d71802d71f02d72902d73803d70302e10602e10a02e10f02e11802e11f02e12902e13803e1,
   0x0202ec0902ec1702ec2803ec0202ed0902ed1702ed2803ed0102c71603c70102cf1603cf0102ea1603ea0102eb1603eb,
   0x0302ec0602ec0a02ec0f02ec1802ec1f02ec2902ec3803ec0302ed0602ed0a02ed0f02ed1802ed1f02ed2902ed3803ed,
   0x0202c70902c71702c72803c70202cf0902cf1702cf2803cf0202ea0902ea1702ea2803ea0202eb0902eb1702eb2803eb,
   0x0302c70602c70a02c70f02c71802c71f02c72902c73803c70302cf0602cf0a02cf0f02cf1802cf1f02cf2902cf3803cf,
   0x0302ea0602ea0a02ea0f02ea1802ea1f02ea2902ea3803ea0302eb0602eb0a02eb0f02eb1802eb1f02eb2902eb3803eb,
   0xc20000c30000c50000c60000c90000ca0000cc0000cd0000d20000d50000d90000dc0000e10000e70000ef0000f60000,
   0x0003c00003c10003c80003c90003ca0003cd0003d20003d50003da0003db0003ee0003f00003f20003f30003ffce0000,
   0x0102c01603c00102c11603c10102c81603c80102c91603c90102ca1603ca0102cd1603cd0102d21603d20102d51603d5,
   0x0202c00902c01702c02803c00202c10902c11702c12803c10202c80902c81702c82803c80202c90902c91702c92803c9,
   0x0302c00602c00a02c00f02c01802c01f02c02902c03803c00302c10602c10a02c10f02c11802c11f02c12902c13803c1,
   0x0302c80602c80a02c80f02c81802c81f02c82902c83803c80302c90602c90a02c90f02c91802c91f02c92902c93803c9,
   0x0202ca0902ca1702ca2803ca0202cd0902cd1702cd2803cd0202d20902d21702d22803d20202d50902d51702d52803d5,
   0x0302ca0602ca0a02ca0f02ca1802ca1f02ca2902ca3803ca0302cd0602cd0a02cd0f02cd1802cd1f02cd2902cd3803cd,
   0x0302d20602d20a02d20f02d21802d21f02d22902d23803d20302d50602d50a02d50f02d51802d51f02d52902d53803d5,
   0x0102da1603da0102db1603db0102ee1603ee0102f01603f00102f21603f20102f31603f30102ff1603ff0003cb0003cc,
   0x0202da0902da1702da2803da0202db0902db1702db2803db0202ee0902ee1702ee2803ee0202f00902f01702f02803f0,
   0x0302da0602da0a02da0f02da1802da1f02da2902da3803da0302db0602db0a02db0f02db1802db1f02db2902db3803db,
   0x0302ee0602ee0a02ee0f02ee1802ee1f02ee2902ee3803ee0302f00602f00a02f00f02f01802f01f02f02902f03803f0,
   0x0202f20902f21702f22803f20202f30902f31702f32803f30202ff0902ff1702ff2803ff0102cb1603cb0102cc1603cc,
   0x0302f20602f20a02f20f02f21802f21f02f22902f23803f20302f30602f30a02f30f02f31802f31f02f32902f33803f3,
   0x0302ff0602ff0a02ff0f02ff1802ff1f02ff2902ff3803ff0202cb0902cb1702cb2803cb0202cc0902cc1702cc2803cc,
   0x0302cb0602cb0a02cb0f02cb1802cb1f02cb2902cb3803cb0302cc0602cc0a02cc0f02cc1802cc1f02cc2902cc3803cc,
   0xd30000d40000d60000d70000da0000db0000dd0000de0000e20000e40000e80000eb0000f00000f30000f70000fa0000,
   0x0003d30003d40003d60003dd0003de0003df0003f10003f40003f50003f60003f70003f80003fa0003fb0003fc0003fd,
   0x0102d31603d30102d41603d40102d61603d60102dd1603dd0102de1603de0102df1603df0102f11603f10102f41603f4,
   0x0202d30902d31702d32803d30202d40902d41702d42803d40202d60902d61702d62803d60202dd0902dd1702dd2803dd,
   0x0302d30602d30a02d30f02d31802d31f02d32902d33803d30302d40602d40a02d40f02d41802d41f02d42902d43803d4,
   0x0302d60602d60a02d60f02d61802d61f02d62902d63803d60302dd0602dd0a02dd0f02dd1802dd1f02dd2902dd3803dd,
   0x0202de0902de1702de2803de0202df0902df1702df2803df0202f10902f11702f12803f10202f40902f41702f42803f4,
   0x0302de0602de0a02de0f02de1802de1f02de2902de3803de0302df0602df0a02df0f02df1802df1f02df2902df3803df,
   0x0302f10602f10a02f10f02f11802f11f02f12902f13803f10302f40602f40a02f40f02f41802f41f02f42902f43803f4,
   0x0102f51603f50102f61603f60102f71603f70102f81603f80102fa1603fa0102fb1603fb0102fc1603fc0102fd1603fd,
   0x0202f50902f51702f52803f50202f60902f61702f62803f60202f70902f71702f72803f70202f80902f81702f82803f8,
   0x0302f50602f50a02f50f02f51802f51f02f52902f53803f50302f60602f60a02f60f02f61802f61f02f62902f63803f6,
   0x0302f70602f70a02f70f02f71802f71f02f72902f73803f70302f80602f80a02f80f02f81802f81f02f82902f83803f8,
   0x0202fa0902fa1702fa2803fa0202fb0902fb1702fb2803fb0202fc0902fc1702fc2803fc0202fd0902fd1702fd2803fd,
   0x0302fa0602fa0a02fa0f02fa1802fa1f02fa2902fa3803fa0302fb0602fb0a02fb0f02fb1802fb1f02fb2902fb3803fb,
   0x0302fc0602fc0a02fc0f02fc1802fc1f02fc2902fc3803fc0302fd0602fd0a02fd0f02fd1802fd1f02fd2902fd3803fd,
   0x0003fee30000e50000e60000e90000ea0000ec0000ed0000f10000f20000f40000f50000f80000f90000fb0000fc0000,
   0x0102fe1603fe00030200030300030400030500030600030700030800030b00030c00030e00030f000310000311000312,
   0x0202fe0902fe1702fe2803fe010202160302010203160303010204160304010205160305010206160306010207160307,
   0x0302fe0602fe0a02fe0f02fe1802fe1f02fe2902fe3803fe020202090202170202280302020203090203170203280303,
   0x0302020602020a02020f02021802021f02022902023803020302030602030a02030f02031802031f0203290203380303,
   0x020204090204170204280304020205090205170205280305020206090206170206280306020207090207170207280307,
   0x0302040602040a02040f02041802041f02042902043803040302050602050a02050f02051802051f0205290205380305,
   0x0302060602060a02060f02061802061f02062902063803060302070602070a02070f02071802071f0207290207380307,
   0x01020816030801020b16030b01020c16030c01020e16030e01020f16030f010210160310010211160311010212160312,
   0x02020809020817020828030802020b09020b17020b28030b02020c09020c17020c28030c02020e09020e17020e28030e,
   0x0302080602080a02080f02081802081f020829020838030803020b06020b0a020b0f020b18020b1f020b29020b38030b,
   0x03020c06020c0a020c0f020c18020c1f020c29020c38030c03020e06020e0a020e0f020e18020e1f020e29020e38030e,
   0x02020f09020f17020f28030f020210090210170210280310020211090211170211280311020212090212170212280312,
   0x03020f06020f0a020f0f020f18020f1f020f29020f38030f0302100602100a02100f02101802101f0210290210380310,
   0x0302110602110a02110f02111802111f02112902113803110302120602120a02120f02121802121f0212290212380312,
   0x00031300031400031500031700031800031900031a00031b00031c00031d00031e00031f00037f0003dc0003f9fd0000,
   0x01021316031301021416031401021516031501021716031701021816031801021916031901021a16031a01021b16031b,
   0x020213090213170213280313020214090214170214280314020215090215170215280315020217090217170217280317,
   0x0302130602130a02130f02131802131f02132902133803130302140602140a02140f02141802141f0214290214380314,
   0x0302150602150a02150f02151802151f02152902153803150302170602170a02170f02171802171f0217290217380317,
   0x02021809021817021828031802021909021917021928031902021a09021a17021a28031a02021b09021b17021b28031b,
   0x0302180602180a02180f02181802181f02182902183803180302190602190a02190f02191802191f0219290219380319,
   0x03021a06021a0a021a0f021a18021a1f021a29021a38031a03021b06021b0a021b0f021b18021b1f021b29021b38031b,
   0x01021c16031c01021d16031d01021e16031e01021f16031f01027f16037f0102dc1603dc0102f91603f9fe0000ff0000,
   0x02021c09021c17021c28031c02021d09021d17021d28031d02021e09021e17021e28031e02021f09021f17021f28031f,
   0x03021c06021c0a021c0f021c18021c1f021c29021c38031c03021d06021d0a021d0f021d18021d1f021d29021d38031d,
   0x03021e06021e0a021e0f021e18021e1f021e29021e38031e03021f06021f0a021f0f021f18021f1f021f29021f38031f,
   0x02027f09027f17027f28037f0202dc0902dc1702dc2803dc0202f90902f91702f92803f900030a00030d000316000400,
   0x03027f06027f0a027f0f027f18027f1f027f29027f38037f0302dc0602dc0a02dc0f02dc1802dc1f02dc2902dc3803dc,
   0x0302f90602f90a02f90f02f91802f91f02f92902f93803f901020a16030a01020d16030d010216160316000400000400,
   0x02020a09020a17020a28030a02020d09020d17020d28030d020216090216170216280316000400000400000400000400,
   0x03020a06020a0a020a0f020a18020a1f020a29020a38030a03020d06020d0a020d0f020d18020d1f020d29020d38030d,
   0x0302160602160a02160f02161802161f0216290216380316000400000400000400000400000400000400000400000400]

/-- `nghttp2_huff_sym`. -/
structure HuffSym where
  nbits : ℕ
  code : ℕ
  deriving DecidableEq, Repr

/-- `huff_sym_table[i]`. -/
def huffSym (i : ℕ) : HuffSym :=
  let sym := huffSymTable.getD i (0, 0)
  ⟨sym.1, sym.2⟩

/-- `nghttp2_huff_decode`, with its flags. -/
structure HuffDecode where
  state : ℕ
  accepted : Bool
  sym : Option UInt8
  fail : Bool
  deriving DecidableEq, Repr

/-- The entry with these six digits. -/
def HuffDecode.ofDigits (digits : ℕ) : HuffDecode where
  state := digits / 2 ^ 16 % 2 ^ 8
  accepted := (digits / 2 ^ 8).testBit 0
  sym := if (digits / 2 ^ 8).testBit 1 then some digits.toUInt8 else none
  fail := (digits / 2 ^ 8).testBit 2

/-- `huff_decode_table[state][block]`. -/
def huffDecode (state block : ℕ) : HuffDecode :=
  .ofDigits (huffDecodeTable.getD state 0 >>> (24 * (15 - block)))

/-! ### Encoding -/

/-- A string that is being written: the bytes that are complete, and the byte at `last`. -/
structure HuffOut where
  data : Bytes := []
  held : UInt8 := 0
  deriving DecidableEq, Repr

namespace HuffOut

/-- `nghttp2_bufs_fast_addb`. -/
def addb (o : HuffOut) (b : ℕ) : HuffOut := { o with data := o.data ++ [b.toUInt8] }

/-- `nghttp2_bufs_fast_addb_hold`. -/
def addbHold (o : HuffOut) (b : ℕ) : HuffOut := { o with held := b.toUInt8 }

/-- `nghttp2_bufs_fast_orb`. -/
def orb (o : HuffOut) (b : ℕ) : HuffOut := { o with data := o.data ++ [o.held ||| b.toUInt8] }

/-- `nghttp2_bufs_fast_orb_hold`. -/
def orbHold (o : HuffOut) (b : ℕ) : HuffOut := { o with held := o.held ||| b.toUInt8 }

end HuffOut

/-- A byte of the longer code path, when there are more than `n` bits. -/
def huffAddHigh (code n : ℕ) (p : HuffOut × ℕ) : HuffOut × ℕ :=
  if p.2 > n then (p.1.addb (code >>> n), p.2 - 8) else p

/-- `huff_encode_sym`; the second component is the new `rembits`. -/
def huffEncodeSym (o : HuffOut) (rembits : ℕ) (sym : HuffSym) : HuffOut × ℕ :=
  if rembits > sym.nbits then
    (o.orbHold (sym.code <<< (rembits - sym.nbits)), rembits - sym.nbits)
  else if rembits = sym.nbits then (o.orb sym.code, 8)
  else
    let o := o.orb (sym.code >>> (sym.nbits - rembits))
    let nbits := sym.nbits - rembits
    -- align code to MSB byte boundary
    let code := if nbits % 8 = 0 then sym.code else (sym.code <<< (8 - nbits % 8)) % 2 ^ 32
    if nbits < 8 then (o.addbHold code, 8 - nbits)
    else
      let p := huffAddHigh code 8 (huffAddHigh code 16 (huffAddHigh code 24 (o, nbits)))
      if p.2 = 8 then (p.1.addb code, 8) else (p.1.addbHold code, 8 - p.2)

/-- `nghttp2_hd_huff_encode_count`. -/
def hdHuffEncodeCount (src : Bytes) : ℕ := ((src.map fun c => (huffSym c.toNat).nbits).sum + 7) / 8

/-- The loop of `nghttp2_hd_huff_encode`. -/
def hdHuffEncodeLoop : Bytes → HuffOut → ℕ → HuffOut × ℕ
  | [], o, rembits => (o, rembits)
  | c :: src, o, rembits =>
    let p := huffEncodeSym (if rembits = 8 then o.addbHold 0 else o) rembits (huffSym c.toNat)
    hdHuffEncodeLoop src p.1 p.2

/-- `nghttp2_hd_huff_encode`: the bytes that are added. -/
def hdHuffEncode (src : Bytes) : Bytes :=
  let p := hdHuffEncodeLoop src {} 8
  -- 256 is special terminal symbol, pad with its prefix
  if p.2 < 8 then (p.1.orb ((huffSym 256).code >>> ((huffSym 256).nbits - p.2))).data else p.1.data

/-! ### Decoding -/

/-- The errors of the functions for header blocks. -/
inductive HdError where
  | headerComp
  | bufferError
  | invalidState
  deriving DecidableEq, Repr

/-- `NGHTTP2_HD_MAX_NV`, which is also what `nvbufs` holds. -/
def hdMaxNv : ℕ := 65536

/-- `nghttp2_bufs_addb` for `nvbufs`. -/
def bufsAddb (bufs : Bytes) (b : UInt8) : Except HdError Bytes :=
  if bufs.length < hdMaxNv then .ok (bufs ++ [b]) else .error .bufferError

/-- `nghttp2_hd_huff_decode_context`. -/
structure HuffDecodeContext where
  state : ℕ := 0
  accept : Bool := true
  deriving DecidableEq, Repr

/-- A step of the automaton. -/
def huffDecodeStep (state block : ℕ) (bufs : Bytes) : Except HdError (HuffDecode × Bytes) :=
  let t := huffDecode state block
  if t.fail then .error .headerComp
  else
    match t.sym with
    | some sym => (bufsAddb bufs sym).map fun bufs => (t, bufs)
    | none => .ok (t, bufs)

/-- The loop of `nghttp2_hd_huff_decode`. -/
def hdHuffDecodeLoop : Bytes → HuffDecodeContext → Bytes → Except HdError (HuffDecodeContext × Bytes)
  | [], ctx, bufs => .ok (ctx, bufs)
  | c :: src, ctx, bufs => do
    let t ← huffDecodeStep ctx.state (c >>> 4).toNat bufs
    let t ← huffDecodeStep t.1.state (c &&& 0xf).toNat t.2
    hdHuffDecodeLoop src ⟨t.1.state, t.1.accepted⟩ t.2

/-- `nghttp2_hd_huff_decode`, which reads all of `src` when it succeeds. -/
def hdHuffDecode (ctx : HuffDecodeContext) (bufs src : Bytes) (final : Bool) :
    Except HdError (HuffDecodeContext × Bytes) := do
  let r ← hdHuffDecodeLoop src ctx bufs
  if final && !r.1.accept then .error .headerComp else .ok r

end H2ClientProxy.Nghttp2
